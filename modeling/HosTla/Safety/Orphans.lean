-- SUMMARY: An account without keys has an entry, as long as the callbacks that remove entries are answered by its own locker.
import HosTla.Custody.Errands
import HosTla.Custody.Refinement
import HosTla.Chain.Receipts

/-!
# Orphans

Three callbacks remove an entry by its key. They are told that a promise went through,
not which rental it was for nor what became of the account. A locker answers the end of
an export with success also when no key was added, and an account that left the registry
answers what it likes.
-/

namespace HosTla

open Foundation

/-- The account and the number of a receipt a locker sent to itself. -/
def Flight.selfSent : Flight → Option (AccountId × ℕ)
  | .deleteAccount a _ sent | .addKey a _ _ _ sent => some (a, sent)
  | _ => none

/-- The account a full-access key is about to be added to. -/
def Flight.keyTarget : Flight → Option AccountId
  | .addKey a _ _ _ _ => some a
  | _ => none

namespace Chain

/-- A locker that is held and not about to be deleted has an entry. -/
def NoOrphans (c : Chain) : Prop :=
  ∀ a l keys, c.accounts a = .locker l keys → l.state = .held →
    (∀ i p sent, c.flights.get i ≠ some (.deleteAccount a p sent)) →
      (c.registry.subAccounts.get a.chars).isSome

/-- An account that runs the locker and has no full-access key has an entry. -/
def KeylessManaged (c : Chain) : Prop :=
  ∀ a l, c.accounts a = .locker l [] → (c.registry.subAccounts.get a.chars).isSome

/-- Receipts that a locker sends to itself are executed in the order they were sent. -/
def InOrder (c : Chain) : Label → Prop
  | .deliver id _ => ∀ x ∈ c.about Flight.selfSent id, ∀ y, c.InFlight Flight.selfSent y →
    y.1 = x.1 → x.2 ≤ y.2
  | _ => True

/-- Only the manager creates an account at a key. -/
def ByManager (c : Chain) : Label → Prop
  | .foreign a true =>
    c.accounts a = .absent → ∀ tlaId name, a.chars ≠ subAccountKey tlaId name
  | _ => True

def Orderly (c : Chain) (l : Label) : Prop := c.InOrder l ∧ c.ByManager l

/-- No callback of an export learns of a success after its `AddKey` failed, no account that
runs other code answers a deletion or an export with success, and no key is rented while a
full-access key is still on its way to the account. -/
def KeepsEntries (c : Chain) : Label → Prop
  | .deliver id ok =>
    match c.flights.get id with
    | some (.exportResolved a _ _ false) =>
      c.accounts a = .absent ∨ c.accounts a = .foreign ∧ ok = false
    | some (.finalizeCall a _) => c.accounts a = .foreign → ok = false
    | some (.exportCall a _ _) => c.accounts a = .foreign → ok = false
    | _ => True
  | .call _ _ _ (.rentSubAccount tlaId name _ _) =>
    c.registry.subAccounts.get (subAccountKey tlaId name) = none →
      ∀ a, c.InFlight Flight.keyTarget a → a.chars ≠ subAccountKey tlaId name
  | _ => True

instance (c : Chain) (l : Label) : Decidable (c.InOrder l) := by
  delta InOrder
  rcases l with _ | _ <;> infer_instance

instance (c : Chain) (l : Label) : Decidable (c.KeepsEntries l) := by
  delta KeepsEntries
  rcases l with ⟨_, _, _, op⟩ | ⟨id, _⟩ | _
  · rcases op with _ | _ <;> infer_instance
  · dsimp only
    rcases c.flights.get id with _ | (_ | _) <;>
      first | infer_instance | (rename_i ok; rcases ok with _ | _ <;> infer_instance)
  all_goals infer_instance

end Chain

/-! ## Errands -/

def Flight.errand : Flight → Option Errand
  | .createCall p | .createBatch p _ _ => some (.create p.key)
  | .created p false => some (.remove p.key)
  | .deleteAccount a _ sent => some (.delete a sent)
  | .reclaimFinalized p true => some (.remove p.key)
  | .addKey a _ _ _ sent => some (.addKey a sent)
  | .exportResolved _ tlaId name true => some (.remove (subAccountKey tlaId name))
  | .exportSettled tlaId name true => some (.remove (subAccountKey tlaId name))
  | _ => none

theorem Flight.isSweep_errand {fl : Flight} (h : fl.isSweep = true) : fl.errand = none := by
  cases fl <;> first | rfl | cases h

theorem Flight.errand_eq_delete {fl : Flight} {a : AccountId} {n : ℕ} :
    fl.errand = some (.delete a n) ↔ ∃ p, fl = .deleteAccount a p n := by
  constructor
  · intro h
    unfold errand at h
    split at h <;> cases h
    exact ⟨_, rfl⟩
  · rintro ⟨p, rfl⟩
    rfl

theorem Flight.errand_eq_addKey {fl : Flight} {a : AccountId} {n : ℕ} :
    fl.errand = some (.addKey a n) ↔ ∃ tlaId name key, fl = .addKey a tlaId name key n := by
  constructor
  · intro h
    unfold errand at h
    split at h <;> cases h
    exact ⟨_, _, _, rfl⟩
  · rintro ⟨tlaId, name, key, rfl⟩
    rfl

/-- Of the callbacks, those that end an errand release a key. -/
theorem Flight.custodyEvent_eq_release {fl : Flight} {key : Str}
    (h : fl.custodyEvent = .release key) : fl.errand = some (.remove key) := by
  unfold custodyEvent at h
  split at h <;> cases h <;> rfl

theorem Op.custodyEvent_ne_release (op : Op) (predecessor : AccountId) (key : Str) :
    op.custodyEvent predecessor ≠ .release key := by
  cases op <;> simp [custodyEvent]

theorem Settled.errand {r : TlaRegistry} {fl : Flight} {o : Outcome} (h : Settled r fl o)
    {p : Promise} (hp : o.promise = some p) : p.flight.errand = none := by
  cases h <;> cases hp <;> rfl

/-- A call opens an errand by renting a free key only. -/
theorem Accepted.errand {env : Env} {r : TlaRegistry} {op : Op} {o : Outcome}
    (h : Accepted env r op o) {p : Promise} (hp : o.promise = some p) {e : Errand}
    (he : p.flight.errand = some e) :
    ∃ tlaId name ownerKey mainWallet, op = .rentSubAccount tlaId name ownerKey mainWallet ∧
      e = .create (subAccountKey tlaId name) ∧
      r.subAccounts.get (subAccountKey tlaId name) = none ∧
      (o.registry.subAccounts.get (subAccountKey tlaId name)).isSome := by
  cases h with
  | rentSubAccount _ _ hfree =>
    cases hp
    cases he
    refine ⟨_, _, _, _, rfl, rfl, hfree, ?_⟩
    simp [Outcome.withPromise]
  | resale _ hresale =>
    cases hp
    cases p with
    | createSubAccount => cases hresale
    | _ => cases he
  | reclaimFinalize =>
    cases hp
    split at he <;> cases he
  | buySubAccount =>
    cases hp
    split at he <;> cases he
  | _ => cases hp <;> cases he

/-- The account and the entry an export is about. -/
def Flight.exports : Flight → Option (AccountId × AccountId × Str)
  | .exportCall a tlaId name | .addKey a tlaId name _ _ => some (a, tlaId, name)
  | .exportResolved a tlaId name _ => some (a, tlaId, name)
  | _ => none

theorem Flight.isSweep_exports {fl : Flight} (h : fl.isSweep = true) : fl.exports = none := by
  cases fl <;> first | rfl | cases h

theorem Flight.exports_carried : Flight.Carried Flight.exports where
  next := by
    intro self fl fl' back x hnext hx
    cases hnext with
    | sweep _ h => rw [isSweep_exports h] at hx; cases hx
    | exportAccepted => exact hx
    | keyAdded => exact hx
    | _ => cases hx
  callback := by
    intro r fl o p x ho hp hx
    cases ho <;> cases hp <;> cases hx
  panicked := by
    intro fl x hx
    cases hx
  reclaimAnswer := rfl
  buyAnswer := rfl
  sweep := isSweep_exports
  refund := rfl

theorem Accepted.account_of_exports {env : Env} {r : TlaRegistry} {op : Op} {o : Outcome}
    (h : Accepted env r op o) {promise : Promise} (hp : o.promise = some promise)
    {x : AccountId × AccountId × Str} (hx : promise.flight.exports = some x) :
    x.1.chars = subAccountKey x.2.1 x.2.2 := by
  cases h with
  | exportSubAccount _ _ haccount =>
    cases hp
    cases hx
    exact haccount
  | resale _ hresale =>
    cases hp
    cases promise with
    | exportSubAccount => cases hresale
    | _ => cases hx
  | reclaimFinalize =>
    cases hp
    split at hx <;> cases hx
  | buySubAccount =>
    cases hp
    split at hx <;> cases hx
  | _ => cases hp <;> cases hx

namespace Chain

variable {c c' : Chain} {id : ℕ} {ok : Bool} {fl : Flight}

/-- An export is about the account of its key. -/
theorem Reached.account_of_exports {g : Genesis} (h : c.Reached g) {a tlaId : AccountId}
    {name : Str} (hget : c.flights.get id = some fl) (hx : fl.exports = some (a, tlaId, name)) :
    a.chars = subAccountKey tlaId name :=
  h.of_opened Flight.exports_carried (P := fun x => x.1.chars = subAccountKey x.2.1 x.2.2)
    (fun _ _ _ _ _ _ _ ho hp hx => ho.account_of_exports hp hx) hget hx

theorem account_of_managerBatch {p : PendingRent} {a : AccountId} {l : SubAccountLocker}
    (h : c.managerBatch p = some (a, l)) : a.chars = p.key := by
  obtain ⟨m, -, hbatch⟩ := Option.bind_eq_some_iff.mp h
  cases hcreate : m.createSubAccount c.self p.tlaId p.name p.ownerKey with
  | error e => rw [hcreate] at hbatch; cases hbatch
  | ok x =>
    rw [hcreate] at hbatch
    cases hbatch
    exact (TlaManager.createSubAccount_eq_ok.mp hcreate).2.1

/-- A batch creates the account of its key. -/
theorem Reached.account_of_batch {g : Genesis} (h : c.Reached g) {p : PendingRent} {a : AccountId}
    {l : SubAccountLocker} (hget : c.flights.get id = some (.createBatch p a l)) :
    a.chars = p.key := by
  refine h.flight (P := fun f => ∀ p a l, f = .createBatch p a l → a.chars = p.key)
    (fun c l i f _ harises p a l' hf => ?_) hget p a l rfl
  cases harises with
  | opened | handed =>
    rename_i p _ _ _
    cases p <;> cases hf
  | next _ hadvance hnext hget =>
    subst hf
    cases hnext with
    | sweep _ hsweep => cases hsweep
    | createAccepted =>
      -- The batch is the one the manager has sent.
      cases receipt_of_advance hadvance with
      | createAccepted hbatch =>
        rw [setFlight, LookupMap.get_insert_self] at hget
        cases hget
        exact account_of_managerBatch hbatch
      | createRefused =>
        rcases LookupMap.get_of_get_insert hget with ⟨-, hnew⟩ | ⟨-, hget⟩
        · cases hnew
        · rw [setFlight, LookupMap.get_insert_self] at hget
          cases hget
      | sweepEnded hsweep => cases hsweep
  | sweepAnswer hsweep =>
    subst hf
    cases hsweep
  | _ => cases hf

/-! ## The estate of a chain -/

def estate (c : Chain) : Estate where
  accounts := c.accounts
  managed key := (c.registry.custody.holder key).isSome
  errands := c.about Flight.errand
  nextId := c.nextId

theorem estate_managed (c : Chain) (key : Str) :
    c.estate.managed key = (c.registry.subAccounts.get key).isSome := Option.isSome_map

theorem estate_setFlight (c : Chain) (id : ℕ) (fl : Flight) :
    (c.setFlight id fl).estate = c.estate.put id fl.errand := by
  have herrands : (c.setFlight id fl).about Flight.errand =
      Function.update (c.about Flight.errand) id fl.errand := by
    funext i
    simp only [about, setFlight, Function.update_apply, LookupMap.get_insert]
    split <;> rfl
  simp only [estate, Estate.put, herrands]
  rfl

theorem estate_dropFlight (c : Chain) (id : ℕ) :
    (c.dropFlight id).estate = c.estate.put id none := by
  have herrands : (c.dropFlight id).about Flight.errand =
      Function.update (c.about Flight.errand) id none := by
    funext i
    simp only [about, dropFlight, Function.update_apply, LookupMap.get_remove]
    split <;> rfl
  simp only [estate, Estate.put, herrands]
  rfl

/-- The chain goes on and one more id is used up. -/
theorem estate_setFlight_nextId (c : Chain) (id : ℕ) (fl : Flight) :
    ({ c.setFlight id fl with nextId := c.nextId + 1 } : Chain).estate =
      c.estate.tick.put id fl.errand := congrArg Estate.tick (estate_setFlight c id fl)

theorem estate_send (c : Chain) (fl : Flight) :
    (c.send fl).estate = (c.estate.put c.nextId fl.errand).tick :=
  congrArg Estate.tick (estate_setFlight c c.nextId fl)

theorem estate_setAccount (c : Chain) (a : AccountId) (state : Account) :
    (c.setAccount a state).estate = c.estate.setAccount a state := rfl

theorem Reached.chars_of_deleting {g : Genesis} (h : c.Reached g) {a : AccountId} {i n : ℕ}
    (he : c.estate.errands i = some (.delete a n)) :
    ∃ tlaId name, a.chars = subAccountKey tlaId name := by
  obtain ⟨fl, hget, herrand⟩ := Option.bind_eq_some_iff.mp he
  obtain ⟨p, rfl⟩ := Flight.errand_eq_delete.mp herrand
  exact ⟨_, _, h.aimed hget⟩

theorem Reached.chars_of_adding {g : Genesis} (h : c.Reached g) {a : AccountId} {i n : ℕ}
    (he : c.estate.errands i = some (.addKey a n)) :
    ∃ tlaId name, a.chars = subAccountKey tlaId name := by
  obtain ⟨fl, hget, herrand⟩ := Option.bind_eq_some_iff.mp he
  obtain ⟨tlaId, name, key, rfl⟩ := Flight.errand_eq_addKey.mp herrand
  exact ⟨_, _, h.account_of_exports hget rfl⟩

/-- A key is managed until a step releases it. -/
theorem managed_of_step {l : Label} {key : Str} (h : c.step l = some c')
    (hrelease : c.custodyEvent l ≠ .release key) (hkey : c.estate.managed key = true) :
    c'.estate.managed key = true := by
  refine Option.isSome_iff_ne_none.mpr ?_
  rw [(custody_step h).2]
  exact Custody.holder_apply_ne_none (Option.isSome_iff_ne_none.mp hkey) hrelease

/-! ## Steps -/

/-- An accepted call. -/
theorem sound_accept (hI : c.estate.Sound) (hfresh : c.FreshIds)
    {predecessor : AccountId} {deposit reserve : ℕ} {op : Op} {o : Outcome}
    (hkeeps : c.KeepsEntries (.call predecessor deposit reserve op))
    (hstep : c.step (.call predecessor deposit reserve op) = some (c.accept deposit o))
    (ho : Accepted (c.callEnv predecessor deposit reserve) c.registry op o) :
    (c.accept deposit o).estate.Sound := by
  have hmanaged : ∀ key, c.estate.managed key = true →
      (c.accept deposit o).estate.managed key = true := by
    intro key hkey
    refine managed_of_step hstep ?_ hkey
    unfold custodyEvent
    cases hcall : c.callOutcome predecessor deposit reserve op with
    | none => simp [hcall]
    | some => simpa [hcall] using op.custodyEvent_ne_release predecessor key
  cases hp : o.promise.bind fun p => p.flight.errand with
  | none =>
    refine hI.mono rfl hmanaged (fun i e he => ?_) (Nat.le_succ _)
    refine (about_accept hfresh (fun p hpromise => ?_) i).symm.trans he
    rwa [hpromise] at hp
  | some e =>
    obtain ⟨p, hpromise, herrand⟩ := Option.bind_eq_some_iff.mp hp
    obtain ⟨tlaId, name, ownerKey, mainWallet, rfl, rfl, hfree, hnew⟩ := ho.errand hpromise herrand
    have hunmanaged : c.estate.managed (subAccountKey tlaId name) = false := by
      simp [estate_managed, hfree]
    have hadding : ∀ i a n, c.estate.errands i = some (.addKey a n) →
        a.chars ≠ subAccountKey tlaId name := by
      intro i a n hi
      obtain ⟨fl, hget, hfl⟩ := Option.bind_eq_some_iff.mp hi
      obtain ⟨tlaId', name', key, rfl⟩ := Flight.errand_eq_addKey.mp hfl
      exact hkeeps hfree a ⟨i, _, hget, rfl⟩
    refine (hI.rent hunmanaged hadding c.nextId).mono rfl (fun key hkey => ?_) (fun i e he => ?_)
      (Nat.le_succ _)
    · by_cases hk : key = subAccountKey tlaId name
      · subst hk
        exact (estate_managed _ _).trans hnew
      · exact hmanaged key ((Function.update_of_ne hk _ _).symm.trans hkey)
    · simp only [Estate.put, Function.update_apply]
      split
      · subst i
        exact herrand.symm.trans ((about_accept_self hpromise).symm.trans he)
      · rename_i hi
        exact (about_accept_ne hi).symm.trans he

/-- A callback of the registry. -/
theorem sound_settle (hI : c.estate.Sound) {o : Outcome} (hfl : c.flights.get id = some fl)
    (hcallback : c.callbackOutcome id = some o)
    (hstep : c.step (.deliver id ok) = some (c.settle id o)) (ho : Settled c.registry fl o) :
    (c.settle id o).estate.Sound := by
  have hevent : c.custodyEvent (.deliver id ok) = fl.custodyEvent := by
    simp [custodyEvent, hcallback, hfl]
  have herrands : ∀ i e, (c.settle id o).estate.errands i = some e →
      (c.estate.put id none).errands i = some e := by
    intro i e he
    simp only [Estate.put, Function.update_apply]
    split
    · subst i
      have hnone : (c.settle id o).about Flight.errand id = none := by
        rw [about_settle_self]
        cases hp : o.promise with
        | none => rfl
        | some p => exact ho.errand hp
      exact hnone.symm.trans he
    · rename_i hi
      exact (about_settle_ne hi).symm.trans he
  by_cases hrelease : ∃ key, fl.custodyEvent = .release key
  -- The entry that is removed is the one the errand of this chain is about.
  · obtain ⟨key, hkey⟩ := hrelease
    have herrand : c.estate.errands id = some (.remove key) := by
      rw [← Flight.custodyEvent_eq_release hkey]
      exact about_of_get hfl
    refine (hI.forget herrand rfl).mono rfl (fun k hk => ?_) herrands (Nat.le_refl _)
    simp only [Estate.setManaged, Function.update_apply] at hk
    split at hk
    · cases hk
    · rename_i hne
      refine managed_of_step hstep ?_ hk
      rw [hevent, hkey]
      rintro ⟨⟩
      exact hne rfl
  · refine (hI.drop id).mono rfl (fun k hk => ?_) herrands (Nat.le_refl _)
    refine managed_of_step hstep ?_ hk
    rw [hevent]
    exact fun hk => hrelease ⟨k, hk⟩

/-- A chain that goes on without an errand. -/
theorem sound_quiet (hI : c.estate.Sound) {fl' : Flight} (h : fl'.errand = none) :
    (c.setFlight id fl').estate.Sound := by
  rw [estate_setFlight, h]
  exact hI.drop id

/-- Every deletion the account sent is executed before the key is added. -/
theorem not_deleting_of_inOrder (hI : c.estate.Sound) {a tlaId : AccountId} {name : Str}
    {key : PublicKey} {sent : ℕ} (hfl : c.flights.get id = some (.addKey a tlaId name key sent))
    (horder : c.InOrder (.deliver id ok)) (i n : ℕ) :
    c.estate.errands i ≠ some (.delete a n) := by
  intro he
  have hlt := hI.order _ _ _ _ _ he (about_of_get hfl)
  obtain ⟨fl, hget, hdelete⟩ := Option.bind_eq_some_iff.mp he
  obtain ⟨p, rfl⟩ := Flight.errand_eq_delete.mp hdelete
  have hle := horder (a, sent) (about_of_get hfl) (a, n) ⟨i, _, hget, rfl⟩ rfl
  exact Nat.lt_irrefl _ (Nat.lt_of_lt_of_le hlt hle)

/-- The locker accepts an export. -/
theorem sound_exportAccepted (hI : c.estate.Sound) {a tlaId : AccountId} {name : Str}
    {l : SubAccountLocker} {keys : List PublicKey} (hlocker : c.accounts a = .locker l keys)
    (hheld : l.state = .held) :
    ({ (c.setFlight id (.addKey a tlaId name l.ownerKey c.nextId)).setAccount a
        (.locker { l with state := .exporting } keys) with
      nextId := c.nextId + 1 } : Chain).estate.Sound := by
  have hset := estate_setFlight_nextId c id (.addKey a tlaId name l.ownerKey c.nextId)
  have hexport : (({ c.setFlight id (.addKey a tlaId name l.ownerKey c.nextId) with
      nextId := c.nextId + 1 } : Chain).estate.setAccount a
        (.locker { l with state := .exporting } keys)).Sound := by
    rw [hset]
    exact hI.export_ hlocker hheld rfl id
  exact hexport

theorem sound_keyAdded {g : Genesis} (hreach : c.Reached g) (hI : c.estate.Sound)
    {a tlaId : AccountId} {name : Str} {key : PublicKey} {sent : ℕ} {l : SubAccountLocker}
    {keys : List PublicKey} (hfl : c.flights.get id = some (.addKey a tlaId name key sent))
    (horder : c.InOrder (.deliver id ok)) (hlocker : c.accounts a = .locker l keys) :
    ((c.setFlight id (.exportResolved a tlaId name true)).setAccount a
      (.locker l (key :: keys))).estate.Sound := by
  have hadded : ((c.estate.setAccount a (.locker l (key :: keys))).put id
      (some (.remove a.chars))).Sound :=
    hI.addKey (about_of_get hfl) hlocker (not_deleting_of_inOrder hI hfl horder)
  rw [hreach.account_of_exports hfl rfl] at hadded
  rw [estate_setAccount, estate_setFlight]
  exact hadded

/-- The locker learns that the key was added. -/
theorem sound_exportResolved {g : Genesis} (hreach : c.Reached g) (hI : c.estate.Sound)
    {a tlaId : AccountId} {name : Str} {l : SubAccountLocker} {keys : List PublicKey}
    (hfl : c.flights.get id = some (.exportResolved a tlaId name true))
    (hlocker : c.accounts a = .locker l keys) :
    ((c.setFlight id (.exportSettled tlaId name true)).setAccount a
      (.locker (l.onExportResolved true) keys)).estate.Sound := by
  have hremove : (c.estate.put id (some (.remove (subAccountKey tlaId name)))).errands id =
      some (.remove a.chars) := by
    rw [hreach.account_of_exports hfl rfl]
    exact Function.update_self _ _ _
  rw [estate_setAccount, estate_setFlight]
  exact (hI.keep (about_of_get hfl)).resolve hremove hlocker rfl

/-- An account with a key on its way to it runs the locker, or it is gone. -/
theorem not_foreign_of_addKey (hI : c.estate.Sound) {a tlaId : AccountId} {name : Str}
    {key : PublicKey} {sent : ℕ} (hfl : c.flights.get id = some (.addKey a tlaId name key sent)) :
    c.accounts a ≠ .foreign := by
  intro hforeign
  rcases hI.adding _ _ _ (about_of_get hfl) with habsent | ⟨l, hl, -⟩
  · cases hforeign.symm.trans habsent
  · cases hforeign.symm.trans hl

/-- A receipt outside the registry. -/
theorem sound_receipt {g : Genesis} (hreach : c.Reached g) (hI : c.estate.Sound)
    (hfl : c.flights.get id = some fl) (horder : c.InOrder (.deliver id ok))
    (hkeeps : c.KeepsEntries (.deliver id ok)) (h : c.Receipt id ok fl c') : c'.estate.Sound := by
  have herrand : c.estate.errands id = fl.errand := about_of_get hfl
  simp only [KeepsEntries, hfl] at hkeeps
  cases h with
  | createAccepted =>
    rw [estate_setFlight]
    exact hI.keep herrand
  | createRefused | batchFailed =>
    rw [estate_send, estate_setFlight]
    exact ((hI.fail herrand).drop _).tick
  | created =>
    rw [estate_setAccount, estate_setFlight]
    refine hI.create ?_ _
    rw [hreach.account_of_batch hfl]
    exact herrand
  | refundFailed =>
    rw [estate_send]
    exact ((sound_quiet hI rfl).drop _).tick
  | refundArrived | swept =>
    exact estate_dropFlight c id ▸ hI.drop id
  | sweepEnded | resaleEnded =>
    rw [estate_dropFlight]
    exact hI.drop id
  | finalizeAccepted hlocker hheld =>
    rw [estate_setFlight_nextId]
    exact hI.finalize hlocker hheld id
  | @finalizeAnswered a p answer hanswer =>
    cases answer with
    | false => exact sound_quiet hI rfl
    | true => cases (hanswer rfl).1.symm.trans (hkeeps (hanswer rfl).2)
  | deleted hok hpresent =>
    rw [estate_setAccount, estate_setFlight]
    have h := hI.delete herrand hpresent
    rw [hreach.aimed hfl] at h
    exact h
  | exportAccepted hlocker hheld => exact sound_exportAccepted hI hlocker hheld
  | @exportAnswered a tlaId name answer hanswer =>
    cases answer with
    | false => exact sound_quiet hI rfl
    | true => cases (hanswer rfl).1.symm.trans (hkeeps (hanswer rfl).2)
  | keyAdded _ hlocker => exact sound_keyAdded hreach hI hfl horder hlocker
  | @keyAnswered a tlaId name key sent answer hanswer =>
    cases answer with
    | false => exact sound_quiet hI rfl
    | true => exact absurd (hanswer rfl).2 (not_foreign_of_addKey hI hfl)
  | @exportResolved a tlaId name added l keys hlocker =>
    cases added with
    | false =>
      rcases hkeeps with habsent | ⟨hforeign, -⟩
      · cases hlocker.symm.trans habsent
      · cases hlocker.symm.trans hforeign
    | true => exact sound_exportResolved hreach hI hfl hlocker
  | @resolvedElsewhere a tlaId name added answer helse hanswer =>
    cases answer with
    | false => exact sound_quiet hI rfl
    | true =>
      cases added with
      | true =>
        rw [estate_setFlight]
        exact hI.keep herrand
      | false =>
        obtain ⟨hok, hforeign⟩ := hanswer rfl
        rcases hkeeps with habsent | ⟨-, hfailed⟩
        · cases hforeign.symm.trans habsent
        · cases hok.symm.trans hfailed
  | @transferred a b l keys hok hlocker hheld =>
    have hdrop := hI.drop id
    cases hI.held a l keys hlocker hheld
    rw [estate_setAccount, estate_setFlight]
    exact hdrop.setBare ⟨l, hlocker⟩ _ (hdrop.not_adding hlocker hheld)
  | _ => exact sound_quiet hI rfl

/-- An account that is not in the custody of a locker changes. -/
theorem sound_foreign {g : Genesis} (hreach : c.Reached g) (hI : c.estate.Sound) {a : AccountId}
    {present : Bool} (hfree : ∀ l, c.accounts a ≠ .locker l [])
    (hmanager : c.ByManager (.foreign a present)) :
    (c.setAccount a (if present then .foreign else .absent)).estate.Sound := by
  cases present with
  | false => exact hI.leave a
  | true =>
    have hbare : ¬ c.estate.Bare a := fun ⟨l, hl⟩ => hfree l hl
    refine hI.change ?_ ?_
    · intro i n he
      obtain ⟨tlaId, name, hkey⟩ := hreach.chars_of_deleting he
      exact hmanager ((hI.deleting _ _ _ he).resolve_right hbare) tlaId name hkey
    · intro i n he
      obtain ⟨tlaId, name, hkey⟩ := hreach.chars_of_adding he
      exact hmanager ((hI.adding _ _ _ he).resolve_right fun h => hbare h.bare) tlaId name hkey

theorem sound_step {g : Genesis} {l : Label} (hreach : c.Reached g) (hI : c.estate.Sound)
    (horder : c.Orderly l) (hkeeps : c.KeepsEntries l) (hstep : c.step l = some c') :
    c'.estate.Sound := by
  cases move_of_step hstep with
  | accepted _ _ _ ho => exact sound_accept hI hreach.freshIds hkeeps hstep ho
  | settled hfl hcallback ho => exact sound_settle hI hfl hcallback hstep ho
  | panicked => exact sound_quiet hI rfl
  | advanced hfl _ _ hadvance =>
    exact sound_receipt hreach hI hfl horder.1 hkeeps (receipt_of_advance hadvance)
  | answered _ hanswer =>
    cases hanswer with
    | reclaim | buy => exact sound_quiet hI rfl
    | sweep _ hsweep => exact sound_quiet hI (Flight.isSweep_errand hsweep)
  | foreign hfree => exact sound_foreign hreach hI hfree horder.2
  | _ => exact hI

theorem init_ne_locker (g : Genesis) (a : AccountId) (l : SubAccountLocker)
    (keys : List PublicKey) : (init g).accounts a ≠ .locker l keys := by
  simp only [init]
  split <;> simp

theorem sound_init (g : Genesis) : (init g).estate.Sound where
  entry _ _ _ he := by cases he
  single _ _ _ _ _ he := by cases he
  bareManaged a ha := by
    obtain ⟨l, hl⟩ := ha
    exact absurd hl (init_ne_locker g a l [])
  bareAlone _ _ _ _ he := by cases he
  held a l keys hl := absurd hl (init_ne_locker g a l keys)
  deleting _ _ _ he := by cases he
  adding _ _ _ he := by cases he
  uncreated _ _ _ _ he := by cases he
  oneKey _ _ _ _ _ he := by cases he
  order _ _ _ _ _ he := by cases he
  sent _ _ _ he := by cases he

theorem noOrphans_of_sound (hI : c.estate.Sound) : c.NoOrphans := by
  intro a l keys hlocker hheld _
  rw [← estate_managed]
  exact hI.bareManaged a (hI.bare_of_held hlocker hheld)

theorem keylessManaged_of_sound (hI : c.estate.Sound) : c.KeylessManaged := by
  intro a l hlocker
  rw [← estate_managed]
  exact hI.bareManaged a ⟨l, hlocker⟩

theorem sound_of_run {g : Genesis} {tr : List (Transition Chain Label)}
    (hrun : Run step (init g) tr c) (horder : Meets Orderly tr) (hkeeps : Meets KeepsEntries tr) :
    c.estate.Sound :=
  hrun.guarded (I := fun c => c.estate.Sound) (G := fun c l => c.Orderly l ∧ c.KeepsEntries l)
    (sound_init g) (fun _ _ _ hreach hI hG hstep => sound_step hreach hI hG.1 hG.2 hstep)
    fun t ht => ⟨horder t ht, hkeeps t ht⟩

end Chain

/-- Where the callbacks that remove entries learn what became of the account, no held
account is without its entry in any state of the run. -/
theorem no_orphans_of_run {g : Genesis} {tr : List (Transition Chain Label)} {c : Chain}
    (hrun : Run Chain.step (Chain.init g) tr c) (horder : Meets Chain.Orderly tr)
    (hkeeps : Meets Chain.KeepsEntries tr) :
    (c.NoOrphans ∧ c.KeylessManaged) ∧
      ∀ t ∈ tr, t.before.NoOrphans ∧ t.before.KeylessManaged := by
  have hI := Chain.sound_of_run hrun horder hkeeps
  refine ⟨⟨Chain.noOrphans_of_sound hI, Chain.keylessManaged_of_sound hI⟩, fun t ht => ?_⟩
  obtain ⟨tr', hrun', hmem, -⟩ := hrun.of_mem ht
  have hbefore := Chain.sound_of_run hrun' (fun u hu => horder u (hmem u hu))
    fun u hu => hkeeps u (hmem u hu)
  exact ⟨Chain.noOrphans_of_sound hbefore, Chain.keylessManaged_of_sound hbefore⟩

/-! ## An export that fails -/

def Label.isForeign : Label → Bool
  | .foreign .. => true
  | _ => false

theorem Chain.byManager_of_isForeign {c : Chain} {l : Label} (h : l.isForeign = false) :
    c.ByManager l := by
  cases l <;> trivial

namespace Sample

def keyHandedOver : List Label :=
  rented ++ [call admin 0 (.exportSubAccount tla name), .deliver 3 true, .deliver 3 true,
    .deliver 3 true, .deliver 3 true]

/-- The account is exported, but its `AddKey` fails. -/
def exportFailed : List Label :=
  rented ++ [call admin 0 (.exportSubAccount tla name), .deliver 3 true, .deliver 3 false,
    .deliver 3 true, .deliver 3 true]

end Sample

/-- The locker is held again, nothing is in flight, and the entry is gone. -/
theorem orphaned_by_failed_export :
    ∃ tr c l, Run Chain.step (Chain.init Sample.genesis) tr c ∧ Meets Chain.Orderly tr ∧
      tr.map Transition.label = Sample.exportFailed ∧
      c.accounts Sample.sub = .locker l [] ∧ l.state = .held ∧ c.flights.keys = ∅ ∧
      c.registry.subAccounts.get Sample.sub.chars = none ∧ ¬ c.NoOrphans := by
  obtain ⟨tr, hrun, hlabels⟩ := Sample.exists_run Sample.exportFailed (by decide +kernel)
  have hG : Meets (fun c l => c.InOrder l ∧ l.isForeign = false) tr := by
    refine hrun.meets_of_checks ?_
    rw [hlabels]
    decide +kernel
  have hlocker : (Sample.after Sample.exportFailed (by decide +kernel)).accounts Sample.sub =
      .locker ⟨Sample.registry, Sample.ownerKey, .held⟩ [] := by decide +kernel
  have hempty : (Sample.after Sample.exportFailed (by decide +kernel)).flights.keys = ∅ := by
    decide +kernel
  have hnone : (Sample.after Sample.exportFailed (by decide +kernel)).registry.subAccounts.get
      Sample.sub.chars = none := by decide +kernel
  refine ⟨tr, _, _, hrun, fun t ht => ⟨(hG t ht).1, Chain.byManager_of_isForeign (hG t ht).2⟩,
    hlabels, hlocker, rfl, hempty, hnone, fun hno => ?_⟩
  have hsome := hno _ _ _ hlocker rfl fun i p sent hi => ?_
  · rw [hnone] at hsome
    cases hsome
  · have hi' := (LookupMap.mem_keys _ i).mpr (Option.isSome_iff_exists.mpr ⟨_, hi⟩)
    rw [hempty] at hi'
    cases hi'

theorem no_orphans_of_run_exported :
    ∃ tr c, Run Chain.step (Chain.init Sample.genesis) tr c ∧
      c.accounts Sample.sub =
        .locker ⟨Sample.registry, Sample.ownerKey, .exported⟩ [Sample.ownerKey] ∧
      (c.NoOrphans ∧ c.KeylessManaged) ∧
        ∀ t ∈ tr, t.before.NoOrphans ∧ t.before.KeylessManaged := by
  obtain ⟨tr, hrun, hG⟩ := Sample.exists_run_meets
    (fun c l => (c.InOrder l ∧ l.isForeign = false) ∧ c.KeepsEntries l) Sample.keyHandedOver
    (by decide +kernel) (by decide +kernel)
  exact ⟨tr, _, hrun, by decide +kernel, no_orphans_of_run hrun
    (fun t ht => ⟨(hG t ht).1.1, Chain.byManager_of_isForeign (hG t ht).1.2⟩)
    fun t ht => (hG t ht).2⟩

end HosTla
