-- SUMMARY: A locker that has given its key away uses no power any more, if nothing else was pending when it did.
import HosTla.Chain.Receipts
import HosTla.Safety.Reclaims

/-!
# Exports

A single locker, under any calls of the registry and with its promises resolving in any
order. Each method looks at the state of the locker when it is entered, and what it starts
goes on without another look. A sweep or a deletion that is under way when the key is added
goes on after that.
-/

namespace HosTla

open Foundation

/-- A call of the registry to the locker. The tokens of a call are for its callback. -/
inductive LockerCall
  | sweepFt (ft destination : AccountId)
  | finalizeDelete (reclaim : PendingReclaim)
  | export_ (tlaId : AccountId) (name : Str)
  | transfer (settlement : PendingBuy)

def LockerCall.flight (a : AccountId) : LockerCall → Flight
  | .sweepFt ft destination => .sweepCall a ft destination
  | .finalizeDelete reclaim => .finalizeCall a reclaim
  | .export_ tlaId name => .exportCall a tlaId name
  | .transfer settlement => .transferCall a settlement

inductive LockerLabel
  | call (m : LockerCall)
  /-- A receipt or a callback is executed. -/
  | resolve (id : ℕ) (ok : Bool)
  /-- A token answers the query of a sweep. -/
  | answer (id : ℕ) (reply : Reply)
  | setFtBalance (token account : AccountId) (amount : ℕ)

namespace Chain

/-- One step around the locker of the account. The registry may call it at any time. -/
def lockerStep (a : AccountId) (c : Chain) : LockerLabel → Option Chain
  | .call m => some (c.send (m.flight a))
  | .resolve id ok => c.step (.deliver id ok)
  | .answer id reply => c.step (.answer id 0 reply)
  | .setFtBalance token account amount => c.step (.setFtBalance token account amount)

/-- The account has a new locker and nothing is in flight. -/
def Deployed (a : AccountId) (c : Chain) : Prop :=
  (∃ registry ownerKey, c.accounts a = .locker (.new registry ownerKey) []) ∧
    c.flights = LookupMap.empty

end Chain

/-- A step in which the `AddKey` of an export goes through. -/
structure AddsKey (a : AccountId) (id : ℕ) (key : PublicKey) (t : Transition Chain LockerLabel) :
    Prop where
  resolved : t.label = .resolve id true
  before : ∃ tlaId name sent, t.before.flights.get id = some (.addKey a tlaId name key sent)
  added : ∃ l keys, t.before.accounts a = .locker l keys ∧
    t.after.accounts a = .locker l (key :: keys)

/-- A step in which the locker accepts an export and sends itself the `AddKey`. -/
structure AcceptsExport (a : AccountId) (id : ℕ) (key : PublicKey)
    (t : Transition Chain LockerLabel) : Prop where
  before : ∃ tlaId name, t.before.flights.get id = some (.exportCall a tlaId name)
  after : ∃ tlaId name sent, t.after.flights.get id = some (.addKey a tlaId name key sent)
  owner : ∃ l keys, t.before.accounts a = .locker l keys ∧ l.ownerKey = key

/-- A step in which the locker uses its power over the account. -/
inductive UsesPower (a : AccountId) (t : Transition Chain LockerLabel) : Prop
  | storageDeposit {id : ℕ} {ft d : AccountId} {balance : PromiseResult} {amount : ℕ}
      (h : t.before.flights.get id = some (.sweepQueried a ft d balance))
      (h' : t.after.flights.get id = some (.sweepDeposit a ft d amount))
  | ftTransfer {id : ℕ} {ft d : AccountId} {amount : ℕ} {ok : Bool}
      (h : t.before.flights.get id = some (.sweepDeposited a ft d amount ok))
      (h' : t.after.flights.get id = some (.sweepTransfer a ft d amount))
  | swap {id : ℕ} {b : PendingBuy} {l : SubAccountLocker} {keys : List PublicKey}
      (h : t.before.flights.get id = some (.transferCall a b))
      (h' : t.after.flights.get id = some (.sold b true))
      (hlocker : t.before.accounts a = .locker l keys)
  | addKey {id : ℕ} {tlaId : AccountId} {name : Str} {key : PublicKey} {sent : ℕ}
      (h : t.before.flights.get id = some (.exportCall a tlaId name))
      (h' : t.after.flights.get id = some (.addKey a tlaId name key sent))
  | delete {id : ℕ} {p : PendingReclaim} {sent : ℕ}
      (h : t.before.flights.get id = some (.deleteAccount a p sent))
      (hpresent : t.before.accounts a ≠ .absent) (hgone : t.after.accounts a = .absent)

/-- The account whose locker has not done the last thing the chain will make it do. -/
def Flight.unfinished : Flight → Option AccountId
  | .sweepBalance a _ _ | .sweepQueried a _ _ _ => some a
  | .sweepDeposit a _ _ _ | .sweepDeposited a _ _ _ _ => some a
  | .deleteAccount a _ _ => some a
  | _ => none

/-- The account whose export is under way. -/
def Flight.exporting : Flight → Option AccountId
  | .addKey a _ _ _ _ | .exportResolved a _ _ _ => some a
  | _ => none

/-- When the `AddKey` of an export goes through, no sweep and no deletion is under way. -/
def Chain.ExportsAlone (a : AccountId) (c : Chain) : LockerLabel → Prop
  | .resolve id true =>
    match c.flights.get id with
    | some (.addKey ..) => ∀ b, c.InFlight Flight.unfinished b → b ≠ a
    | _ => True
  | _ => True

instance (a : AccountId) (c : Chain) (l : LockerLabel) : Decidable (c.ExportsAlone a l) := by
  delta Chain.ExportsAlone
  rcases l with _ | ⟨id, _ | _⟩ | _
  · infer_instance
  · infer_instance
  · dsimp only
    rcases c.flights.get id with _ | (_ | _) <;> infer_instance
  all_goals infer_instance

/-! ## What is in flight around a locker -/

/-- The stages of the chains that the calls to the locker open. -/
def Flight.ofLocker (a : AccountId) : Flight → Prop
  | .sweepCall b _ _ | .sweepBalance b _ _ | .sweepQueried b _ _ _ => b = a
  | .sweepDeposit b _ _ _ | .sweepDeposited b _ _ _ _ | .sweepTransfer b _ _ _ => b = a
  | .finalizeCall b _ | .deleteAccount b _ _ | .exportCall b _ _ => b = a
  | .addKey b _ _ _ _ | .exportResolved b _ _ _ | .transferCall b _ => b = a
  | .reclaimFinalized .. | .exportSettled .. | .sold .. | .panicked _ => True
  | _ => False

namespace Chain

/-- The locker has given its key away. -/
def GivenAway (a : AccountId) (c : Chain) : Prop :=
  ∃ l keys, c.accounts a = .locker l keys ∧ keys ≠ []

structure Guarded (a : AccountId) (c : Chain) : Prop where
  kinds : ∀ i fl, c.flights.get i = some fl → fl.ofLocker a
  /-- One export at a time, -/
  single : ∀ i j fl fl', c.flights.get i = some fl → c.flights.get j = some fl' →
    fl.exporting = some a → fl'.exporting = some a → i = j
  /-- and the locker waits for its end. -/
  waits : ∀ i fl, c.flights.get i = some fl → fl.exporting = some a →
    ∀ l keys, c.accounts a = .locker l keys → l.state = .exporting
  spent : ∀ l keys, c.accounts a = .locker l keys → keys ≠ [] → l.state ≠ .held
  resolved : c.GivenAway a → ∀ i fl, c.flights.get i = some fl → fl.exporting = some a →
    ∃ tlaId name, fl = .exportResolved a tlaId name true
  alone : c.GivenAway a → ∀ i fl, c.flights.get i = some fl → fl.unfinished ≠ some a

variable {a : AccountId} {c c' : Chain} {id : ℕ} {ok : Bool} {fl : Flight}

theorem Deployed.guarded (h : c.Deployed a) : c.Guarded a := by
  obtain ⟨⟨registry, ownerKey, haccount⟩, hflights⟩ := h
  have hnone : ∀ i fl, c.flights.get i ≠ some fl := by
    intro i fl hget
    rw [hflights] at hget
    cases hget
  refine ⟨fun i fl hget => absurd hget (hnone i fl), fun i _ fl _ hget => absurd hget (hnone i fl),
    fun i fl hget => absurd hget (hnone i fl), ?_, fun _ i fl hget => absurd hget (hnone i fl),
    fun _ i fl hget => absurd hget (hnone i fl)⟩
  intro l keys hlocker hkeys
  rw [haccount] at hlocker
  cases hlocker
  exact absurd rfl hkeys

/-- A step that starts no export, ends none, and keeps the state and the keys of the locker. -/
theorem Guarded.quiet (hI : c.Guarded a)
    (haccount : ∀ l' keys, c'.accounts a = .locker l' keys →
      ∃ l, c.accounts a = .locker l keys ∧ l.state = l'.state)
    (hget : ∀ i fl', c'.flights.get i = some fl' → c.flights.get i = some fl' ∨
      fl'.ofLocker a ∧ fl'.exporting ≠ some a ∧ (c.GivenAway a → fl'.unfinished ≠ some a)) :
    c'.Guarded a := by
  have hold : ∀ i fl', c'.flights.get i = some fl' → fl'.exporting = some a →
      c.flights.get i = some fl' := fun i fl' h hexp =>
    (hget i fl' h).resolve_right fun hnew => hnew.2.1 hexp
  have haway : c'.GivenAway a → c.GivenAway a := by
    rintro ⟨l', keys, hlocker, hkeys⟩
    obtain ⟨l, hlocker₀, -⟩ := haccount l' keys hlocker
    exact ⟨l, keys, hlocker₀, hkeys⟩
  refine ⟨?_, ?_, ?_, ?_, ?_, ?_⟩
  · intro i fl' h
    rcases hget i fl' h with h | h
    · exact hI.kinds i fl' h
    · exact h.1
  · intro i j fl' fl'' hi hj hexp hexp'
    exact hI.single i j fl' fl'' (hold i fl' hi hexp) (hold j fl'' hj hexp') hexp hexp'
  · intro i fl' hi hexp l' keys hlocker
    obtain ⟨l, hlocker₀, hstate⟩ := haccount l' keys hlocker
    rw [← hstate]
    exact hI.waits i fl' (hold i fl' hi hexp) hexp l keys hlocker₀
  · intro l' keys hlocker hkeys
    obtain ⟨l, hlocker₀, hstate⟩ := haccount l' keys hlocker
    rw [← hstate]
    exact hI.spent l keys hlocker₀ hkeys
  · intro h i fl' hi hexp
    exact hI.resolved (haway h) i fl' (hold i fl' hi hexp) hexp
  · intro h i fl' hi
    rcases hget i fl' hi with hi | hnew
    · exact hI.alone (haway h) i fl' hi
    · exact hnew.2.2 (haway h)

/-- The flight at `id` moves on, and the account is left alone. -/
theorem Guarded.setFlight (hI : c.Guarded a) {new : Flight} (hkind : new.ofLocker a)
    (hexp : new.exporting ≠ some a) (hunf : c.GivenAway a → new.unfinished ≠ some a) :
    (c.setFlight id new).Guarded a := by
  refine hI.quiet (fun l' _ h => ⟨l', h, rfl⟩) fun i fl' h => ?_
  rcases LookupMap.get_of_get_insert h with ⟨-, rfl⟩ | ⟨-, h⟩
  · exact .inr ⟨hkind, hexp, hunf⟩
  · exact .inl h

theorem Guarded.dropFlight (hI : c.Guarded a) : (c.dropFlight id).Guarded a :=
  hI.quiet (fun l' _ h => ⟨l', h, rfl⟩) fun _ _ h => .inl (LookupMap.get_of_get_remove h).2

/-- A locker that is asked for nothing else accepts an export. -/
theorem Guarded.exportAccepted (hI : c.Guarded a) {tlaId : AccountId} {name : Str}
    {key : PublicKey} {sent : ℕ} {l : SubAccountLocker} {keys : List PublicKey}
    (hlocker : c.accounts a = .locker l keys) (hheld : l.state = .held) :
    Guarded a ((c.setFlight id (.addKey a tlaId name key sent)).setAccount a
      (.locker { l with state := .exporting } keys)) := by
  have hkeys : keys = [] := by
    by_contra hne
    exact hI.spent l keys hlocker hne hheld
  have hnone : ∀ i fl', c.flights.get i = some fl' → fl'.exporting ≠ some a := by
    intro i fl' hi hexp
    have hstate := hI.waits i fl' hi hexp l keys hlocker
    rw [hheld] at hstate
    cases hstate
  have hnot : ¬ GivenAway a ((c.setFlight id (.addKey a tlaId name key sent)).setAccount a
      (.locker { l with state := .exporting } keys)) := by
    rintro ⟨l', keys', h, hne⟩
    rw [accounts_setAccount_self] at h
    cases h
    exact hne hkeys
  refine ⟨?_, ?_, ?_, ?_, fun h => absurd h hnot, fun h => absurd h hnot⟩
  · intro i fl' h
    rcases LookupMap.get_of_get_insert h with ⟨-, rfl⟩ | ⟨-, h⟩
    · rfl
    · exact hI.kinds i fl' h
  · intro i j fl' fl'' hi hj hexp hexp'
    rcases LookupMap.get_of_get_insert hi with ⟨rfl, -⟩ | ⟨-, hi⟩
    · rcases LookupMap.get_of_get_insert hj with ⟨rfl, -⟩ | ⟨-, hj⟩
      · rfl
      · exact absurd hexp' (hnone j fl'' hj)
    · exact absurd hexp (hnone i fl' hi)
  · intro i fl' _ _ l' keys' h
    rw [accounts_setAccount_self] at h
    cases h
    rfl
  · intro l' keys' h hne
    rw [accounts_setAccount_self] at h
    cases h
    exact absurd hkeys hne

/-- The answer to an `AddKey` that adds nothing. -/
theorem Guarded.keyAnswered (hI : c.Guarded a) {tlaId : AccountId} {name : Str} {key : PublicKey}
    {sent : ℕ} {answer : Bool} (hfl : c.flights.get id = some (.addKey a tlaId name key sent)) :
    (c.setFlight id (.exportResolved a tlaId name answer)).Guarded a := by
  have hnot : ¬ c.GivenAway a := by
    intro h
    obtain ⟨_, _, heq⟩ := hI.resolved h id _ hfl rfl
    cases heq
  have hold : ∀ i fl', (c.setFlight id (.exportResolved a tlaId name answer)).flights.get i =
      some fl' → fl'.exporting = some a →
        ∃ fl, c.flights.get i = some fl ∧ fl.exporting = some a := by
    intro i fl' h hexp
    rcases LookupMap.get_of_get_insert h with ⟨rfl, rfl⟩ | ⟨-, h⟩
    · exact ⟨_, hfl, rfl⟩
    · exact ⟨fl', h, hexp⟩
  refine ⟨?_, ?_, ?_, hI.spent, fun h => absurd h hnot, fun h => absurd h hnot⟩
  · intro i fl' h
    rcases LookupMap.get_of_get_insert h with ⟨-, rfl⟩ | ⟨-, h⟩
    · rfl
    · exact hI.kinds i fl' h
  · intro i j fl' fl'' hi hj hexp hexp'
    obtain ⟨fl₁, hi, hexp⟩ := hold i fl' hi hexp
    obtain ⟨fl₂, hj, hexp'⟩ := hold j fl'' hj hexp'
    exact hI.single i j fl₁ fl₂ hi hj hexp hexp'
  · intro i fl' hi hexp
    obtain ⟨fl₁, hi, hexp⟩ := hold i fl' hi hexp
    exact hI.waits i fl₁ hi hexp

/-- The key is added while nothing else is under way. -/
theorem Guarded.keyAdded (hI : c.Guarded a) {tlaId : AccountId} {name : Str} {key : PublicKey}
    {sent : ℕ} {l : SubAccountLocker} {keys : List PublicKey}
    (hfl : c.flights.get id = some (.addKey a tlaId name key sent))
    (hlocker : c.accounts a = .locker l keys)
    (halone : ∀ b, c.InFlight Flight.unfinished b → b ≠ a) :
    Guarded a ((c.setFlight id (.exportResolved a tlaId name true)).setAccount a
      (.locker l (key :: keys))) := by
  have hstate : l.state = .exporting := hI.waits id _ hfl rfl l keys hlocker
  have honly : ∀ i fl', ((c.setFlight id (.exportResolved a tlaId name true)).setAccount a
      (.locker l (key :: keys))).flights.get i = some fl' → fl'.exporting = some a →
        i = id ∧ fl' = .exportResolved a tlaId name true := by
    intro i fl' h hexp
    rcases LookupMap.get_of_get_insert h with ⟨hi, hfl'⟩ | ⟨hi, h⟩
    · exact ⟨hi, hfl'⟩
    · exact absurd (hI.single i id fl' _ h hfl hexp rfl) hi
  have haccount : ∀ l' keys', ((c.setFlight id (.exportResolved a tlaId name true)).setAccount a
      (.locker l (key :: keys))).accounts a = .locker l' keys' → l' = l := by
    intro l' keys' h
    rw [accounts_setAccount_self] at h
    cases h
    rfl
  refine ⟨?_, ?_, ?_, ?_, ?_, ?_⟩
  · intro i fl' h
    rcases LookupMap.get_of_get_insert h with ⟨-, rfl⟩ | ⟨-, h⟩
    · rfl
    · exact hI.kinds i fl' h
  · intro i j fl' fl'' hi hj hexp hexp'
    exact (honly i fl' hi hexp).1.trans (honly j fl'' hj hexp').1.symm
  · intro i fl' _ _ l' keys' h
    rw [haccount l' keys' h]
    exact hstate
  · intro l' keys' h _
    rw [haccount l' keys' h, hstate]
    simp
  · intro _ i fl' hi hexp
    exact ⟨tlaId, name, (honly i fl' hi hexp).2⟩
  · intro _ i fl' hi
    rcases LookupMap.get_of_get_insert hi with ⟨-, rfl⟩ | ⟨-, hi⟩
    · simp [Flight.unfinished]
    · exact fun hunf => halone a ⟨i, fl', hi, hunf⟩ rfl

/-- The callback of the export. It takes the state back only if no key was added. -/
theorem Guarded.exportResolved (hI : c.Guarded a) {tlaId : AccountId} {name : Str} {added : Bool}
    {l : SubAccountLocker} {keys : List PublicKey}
    (hfl : c.flights.get id = some (.exportResolved a tlaId name added))
    (hlocker : c.accounts a = .locker l keys) :
    Guarded a ((c.setFlight id (.exportSettled tlaId name true)).setAccount a
      (.locker (l.onExportResolved added) keys)) := by
  have hnone : ∀ i fl', ((c.setFlight id (.exportSettled tlaId name true)).setAccount a
      (.locker (l.onExportResolved added) keys)).flights.get i = some fl' →
        fl'.exporting ≠ some a := by
    intro i fl' h hexp
    rcases LookupMap.get_of_get_insert h with ⟨-, rfl⟩ | ⟨hi, h⟩
    · cases hexp
    · exact hi (hI.single i id fl' _ h hfl hexp rfl)
  have haccount : ∀ l' keys', ((c.setFlight id (.exportSettled tlaId name true)).setAccount a
      (.locker (l.onExportResolved added) keys)).accounts a = .locker l' keys' →
        l' = l.onExportResolved added ∧ keys' = keys := by
    intro l' keys' h
    rw [accounts_setAccount_self] at h
    cases h
    exact ⟨rfl, rfl⟩
  refine ⟨?_, ?_, ?_, ?_, ?_, ?_⟩
  · intro i fl' h
    rcases LookupMap.get_of_get_insert h with ⟨-, rfl⟩ | ⟨-, h⟩
    · trivial
    · exact hI.kinds i fl' h
  · intro i j fl' fl'' hi _ hexp
    exact absurd hexp (hnone i fl' hi)
  · intro i fl' hi hexp
    exact absurd hexp (hnone i fl' hi)
  · intro l' keys' h hkeys
    obtain ⟨rfl, rfl⟩ := haccount l' keys' h
    obtain ⟨_, _, heq⟩ := hI.resolved ⟨l, keys', hlocker, hkeys⟩ id _ hfl rfl
    cases heq
    simp [SubAccountLocker.onExportResolved]
  · intro _ i fl' hi hexp
    exact absurd hexp (hnone i fl' hi)
  · rintro ⟨l', keys', h, hkeys⟩ i fl' hi
    obtain ⟨rfl, rfl⟩ := haccount l' keys' h
    rcases LookupMap.get_of_get_insert hi with ⟨-, rfl⟩ | ⟨-, hi⟩
    · simp [Flight.unfinished]
    · exact hI.alone ⟨l, keys', hlocker, hkeys⟩ i fl' hi

/-! ## Steps -/

/-- A callback of the registry at the end of such a chain creates no promise. -/
theorem Guarded.promise_of_settled (hI : c.Guarded a) {o : Outcome}
    (hfl : c.flights.get id = some fl) (ho : Settled c.registry fl o) : o.promise = none := by
  have hkind := hI.kinds id fl hfl
  cases ho with
  | reclaimCleared => cases hkind
  | saleCleared => cases hkind
  | _ => rfl

theorem Guarded.receipt (hI : c.Guarded a) (hfl : c.flights.get id = some fl)
    (h : c.Receipt id ok fl c') (hG : c.ExportsAlone a (.resolve id ok)) : c'.Guarded a := by
  have hkind := hI.kinds id fl hfl
  cases h with
  | createAccepted | createRefused | created | batchFailed => cases hkind
  | refundSent | refundFailed | refundArrived | resaleEnded => cases hkind
  | @sweepAccepted b ft d l keys hlocker hheld =>
    refine hI.setFlight hkind (by simp [Flight.exporting]) ?_
    rintro ⟨l', keys', hlocker', hkeys⟩ -
    cases hkind
    rw [hlocker] at hlocker'
    cases hlocker'
    exact hI.spent l keys hlocker hkeys hheld
  | depositSent =>
    refine hI.setFlight hkind (by simp [Flight.exporting]) fun haway => ?_
    have hbefore := hI.alone haway id _ hfl
    exact hbefore
  | deposited =>
    refine hI.setFlight hkind (by simp [Flight.exporting]) fun haway => ?_
    have hbefore := hI.alone haway id _ hfl
    exact hbefore
  | transferSent =>
    exact hI.setFlight hkind (by simp [Flight.exporting]) (by simp [Flight.unfinished])
  | swept =>
    exact hI.quiet (fun l' _ h => ⟨l', h, rfl⟩) fun _ _ h => .inl (LookupMap.get_of_get_remove h).2
  | sweepEnded => exact hI.dropFlight
  | @finalizeAccepted b p l keys hlocker hheld =>
    cases hkind
    have hset : (c.setFlight id (.deleteAccount a p c.nextId)).Guarded a := by
      refine hI.setFlight rfl (by simp [Flight.exporting]) ?_
      rintro ⟨l', keys', hlocker', hkeys⟩ -
      rw [hlocker] at hlocker'
      cases hlocker'
      exact hI.spent l keys hlocker hkeys hheld
    exact hset.quiet (fun l' _ h => ⟨l', h, rfl⟩) fun _ _ h => .inl h
  | finalizeAnswered =>
    exact hI.setFlight trivial (by simp [Flight.exporting]) (by simp [Flight.unfinished])
  | @deleted b p sent =>
    cases hkind
    refine hI.quiet (fun l' keys h => ?_) fun i fl' h => ?_
    · rw [accounts_setAccount_self] at h
      cases h
    · rcases LookupMap.get_of_get_insert h with ⟨-, rfl⟩ | ⟨-, h⟩
      · exact .inr ⟨trivial, by simp [Flight.exporting], by simp [Flight.unfinished]⟩
      · exact .inl h
  | deleteFailed =>
    exact hI.setFlight trivial (by simp [Flight.exporting]) (by simp [Flight.unfinished])
  | exportAccepted hlocker hheld =>
    cases hkind
    exact (hI.exportAccepted hlocker hheld).quiet (fun l' _ h => ⟨l', h, rfl⟩) fun _ _ h => .inl h
  | exportAnswered =>
    exact hI.setFlight trivial (by simp [Flight.exporting]) (by simp [Flight.unfinished])
  | keyAdded hok hlocker =>
    cases hkind
    subst hok
    simp only [ExportsAlone, hfl] at hG
    exact hI.keyAdded hfl hlocker hG
  | keyAnswered => cases hkind; exact hI.keyAnswered hfl
  | exportResolved hlocker => cases hkind; exact hI.exportResolved hfl hlocker
  | resolvedElsewhere =>
    exact hI.setFlight trivial (by simp [Flight.exporting]) (by simp [Flight.unfinished])
  | @transferred b settlement l keys hok hlocker hheld =>
    cases hkind
    refine hI.quiet (fun l' keys' h => ?_) fun i fl' h => ?_
    · rw [accounts_setAccount_self] at h
      cases h
      exact ⟨l, hlocker, rfl⟩
    · rcases LookupMap.get_of_get_insert h with ⟨-, rfl⟩ | ⟨-, h⟩
      · exact .inr ⟨trivial, by simp [Flight.exporting], by simp [Flight.unfinished]⟩
      · exact .inl h
  | transferAnswered =>
    exact hI.setFlight trivial (by simp [Flight.exporting]) (by simp [Flight.unfinished])

theorem Guarded.step {l : LockerLabel} (hI : c.Guarded a) (hG : c.ExportsAlone a l)
    (hstep : c.lockerStep a l = some c') : c'.Guarded a := by
  cases l with
  | call m =>
    cases hstep
    refine hI.quiet (fun l' _ h => ⟨l', h, rfl⟩) fun i fl' h => ?_
    rcases LookupMap.get_of_get_insert h with ⟨-, rfl⟩ | ⟨-, h⟩
    · cases m <;> exact .inr ⟨rfl, by simp [LockerCall.flight, Flight.exporting],
        by simp [LockerCall.flight, Flight.unfinished]⟩
    · exact .inl h
  | resolve id ok =>
    cases move_of_deliver hstep with
    | settled hfl _ ho =>
      refine hI.quiet (fun l' _ h => ⟨l', h, rfl⟩) fun i fl' h => ?_
      rcases get_settle h with ⟨p, -, hp, -⟩ | ⟨-, h⟩
      · rw [hI.promise_of_settled hfl ho] at hp
        cases hp
      · exact .inl h
    | panicked =>
      exact hI.setFlight trivial (by simp [Flight.exporting]) (by simp [Flight.unfinished])
    | advanced hfl _ _ hadvance => exact hI.receipt hfl (receipt_of_advance hadvance) hG
  | answer id reply =>
    obtain ⟨fl, hfl, hanswer⟩ := Option.bind_eq_some_iff.mp hstep
    have hkind := hI.kinds id fl hfl
    cases fl with
    | reclaimQueries => cases hkind
    | buyQueries => cases hkind
    | sweepBalance b ft d =>
      cases hanswer
      refine hI.setFlight hkind (by simp [Flight.exporting]) fun haway => ?_
      have hbefore := hI.alone haway id _ hfl
      exact hbefore
    | _ => cases hanswer
  | setFtBalance token account amount =>
    cases hstep
    exact hI.quiet (fun l' _ h => ⟨l', h, rfl⟩) fun _ _ h => .inl h

/-! ## After the key is added -/

/-- A stage that only a receipt brings about. -/
theorem receipt_of_step {l : LockerLabel} (hI : c.Guarded a) (hstep : c.lockerStep a l = some c')
    {i : ℕ} {fl' : Flight} (hafter : c'.flights.get i = some fl')
    (hbefore : c.flights.get i ≠ some fl') (hcall : ∀ m : LockerCall, fl' ≠ m.flight a)
    (hsweep : fl'.isSweep = false) (hpanicked : ∀ fl, fl' ≠ .panicked fl)
    (hrefund : ∀ receiver amount, fl' ≠ .refund receiver amount) :
    ∃ ok fl, c.flights.get i = some fl ∧ c.Receipt i ok fl c' := by
  cases l with
  | call m =>
    cases hstep
    rcases LookupMap.get_of_get_insert hafter with ⟨-, hnew⟩ | ⟨-, hafter⟩
    · exact absurd hnew (hcall m)
    · exact absurd hafter hbefore
  | resolve id ok =>
    cases move_of_deliver hstep with
    | settled hfl _ ho =>
      rcases get_settle hafter with ⟨p, -, hp, -⟩ | ⟨-, hafter⟩
      · rw [hI.promise_of_settled hfl ho] at hp
        cases hp
      · exact absurd hafter hbefore
    | panicked =>
      rcases LookupMap.get_of_get_insert hafter with ⟨-, hnew⟩ | ⟨-, hafter⟩
      · exact absurd hnew (hpanicked _)
      · exact absurd hafter hbefore
    | advanced hfl _ _ hadvance =>
      rcases (advanced_of_advance hadvance).get hafter with
        ⟨rfl, -⟩ | ⟨-, hafter⟩ | ⟨-, -, _, _, hnew⟩
      · exact ⟨ok, _, hfl, receipt_of_advance hadvance⟩
      · exact absurd hafter hbefore
      · exact absurd hnew (hrefund _ _)
  | answer id reply =>
    obtain ⟨fl, hfl, hanswer⟩ := Option.bind_eq_some_iff.mp hstep
    cases answered_of_advanceAnswer hanswer with
    | reclaim | buy => exact False.elim (hI.kinds id _ hfl)
    | sweep _ hsweep' =>
      rcases LookupMap.get_of_get_insert hafter with ⟨-, rfl⟩ | ⟨-, hafter⟩
      · rw [hsweep] at hsweep'
        cases hsweep'
      · exact absurd hafter hbefore
  | setFtBalance token account amount =>
    cases hstep
    exact absurd hafter hbefore

/-- An `AddKey` that is new was accepted as an export in this step. -/
theorem accepted_of_addKey {l : LockerLabel} (hI : c.Guarded a)
    (hstep : c.lockerStep a l = some c') {i : ℕ} {tlaId : AccountId} {name : Str}
    {key : PublicKey} {sent : ℕ} (hafter : c'.flights.get i = some (.addKey a tlaId name key sent))
    (hbefore : c.flights.get i ≠ some (.addKey a tlaId name key sent)) :
    c.flights.get i = some (.exportCall a tlaId name) ∧
      ∃ l keys, c.accounts a = .locker l keys ∧ l.state = .held ∧ l.ownerKey = key := by
  obtain ⟨ok, fl, hfl, hreceipt⟩ := receipt_of_step hI hstep hafter hbefore
    (fun m => by cases m <;> simp [LockerCall.flight]) rfl (by simp) (by simp)
  have hself : ∀ fl', c'.flights.get i = some fl' → fl' = .addKey a tlaId name key sent := by
    intro fl' h
    rw [hafter] at h
    exact (Option.some.inj h).symm
  cases hreceipt with
  | exportAccepted hlocker hheld =>
    cases hself _ (LookupMap.get_insert_self _ _ _)
    exact ⟨hfl, _, _, hlocker, hheld, rfl⟩
  | swept | sweepEnded | resaleEnded | refundArrived =>
    exact absurd (LookupMap.get_of_get_remove hafter).1 (by simp)
  | createRefused | batchFailed | refundFailed =>
    exact False.elim (hI.kinds i _ hfl)
  | _ => cases hself _ (LookupMap.get_insert_self _ _ _)

/-- A transfer goes through only while the locker is held. -/
theorem held_of_sold {l : LockerLabel} (hI : c.Guarded a) (hstep : c.lockerStep a l = some c')
    {i : ℕ} {b : PendingBuy} {state : SubAccountLocker} {keys : List PublicKey}
    (hbefore : c.flights.get i = some (.transferCall a b))
    (hafter : c'.flights.get i = some (.sold b true))
    (hlocker : c.accounts a = .locker state keys) : state.state = .held := by
  obtain ⟨ok, fl, hfl, hreceipt⟩ := receipt_of_step hI hstep hafter (by rw [hbefore]; simp)
    (fun m => by cases m <;> simp [LockerCall.flight]) rfl (by simp) (by simp)
  rw [hbefore] at hfl
  cases hfl
  cases hreceipt with
  | transferred _ hlocker' hheld =>
    rw [hlocker] at hlocker'
    cases hlocker'
    exact hheld
  | transferAnswered hanswer =>
    rw [setFlight, LookupMap.get_insert_self] at hafter
    cases hafter
    have hforeign := (hanswer rfl).2
    rw [hlocker] at hforeign
    cases hforeign
  | sweepEnded hsweep => cases hsweep

theorem Guarded.givenAway_of_receipt (hI : c.Guarded a) (haway : c.GivenAway a)
    (hfl : c.flights.get id = some fl) (h : c.Receipt id ok fl c') : c'.GivenAway a := by
  have hkind := hI.kinds id fl hfl
  have hunf := hI.alone haway id fl hfl
  obtain ⟨l, keys, hlocker, hkeys⟩ := haway
  cases h with
  | createAccepted | createRefused | created | batchFailed => cases hkind
  | deleted =>
    cases hkind
    exact absurd rfl hunf
  | exportAccepted hlocker' =>
    cases hkind
    rw [hlocker] at hlocker'
    cases hlocker'
    exact ⟨_, keys, accounts_setAccount_self _ _ _, hkeys⟩
  | @keyAdded _ _ _ key _ _ _ _ hlocker' =>
    cases hkind
    exact ⟨_, _, accounts_setAccount_self _ _ _, List.cons_ne_nil _ _⟩
  | exportResolved hlocker' =>
    cases hkind
    rw [hlocker] at hlocker'
    cases hlocker'
    exact ⟨_, keys, accounts_setAccount_self _ _ _, hkeys⟩
  | transferred _ hlocker' =>
    cases hkind
    rw [hlocker] at hlocker'
    cases hlocker'
    exact ⟨_, keys, accounts_setAccount_self _ _ _, hkeys⟩
  | _ => exact ⟨l, keys, hlocker, hkeys⟩

/-- A key that was added stays, -/
theorem Guarded.givenAway_of_step {l : LockerLabel} (hI : c.Guarded a) (haway : c.GivenAway a)
    (hstep : c.lockerStep a l = some c') : c'.GivenAway a := by
  cases l with
  | call m => cases hstep; exact haway
  | resolve id ok =>
    cases move_of_deliver hstep with
    | settled => exact haway
    | panicked => exact haway
    | advanced hfl _ _ hadvance =>
      exact hI.givenAway_of_receipt haway hfl (receipt_of_advance hadvance)
  | answer id reply =>
    obtain ⟨fl, hfl, hanswer⟩ := Option.bind_eq_some_iff.mp hstep
    cases answered_of_advanceAnswer hanswer <;> exact haway
  | setFtBalance token account amount => cases hstep; exact haway

/-- and the locker has no power left. -/
theorem Guarded.not_usesPower {l : LockerLabel} (hI : c.Guarded a) (haway : c.GivenAway a)
    (hstep : c.lockerStep a l = some c') : ¬ UsesPower a ⟨c, l, c'⟩ := by
  have hspent : ∀ state keys, c.accounts a = .locker state keys → state.state ≠ .held := by
    obtain ⟨state, keys, hlocker, hkeys⟩ := haway
    intro state' keys' hlocker'
    rw [hlocker] at hlocker'
    cases hlocker'
    exact hI.spent state keys hlocker hkeys
  intro h
  cases h with
  | storageDeposit h => exact hI.alone haway _ _ h rfl
  | ftTransfer h => exact hI.alone haway _ _ h rfl
  | delete h => exact hI.alone haway _ _ h rfl
  | swap h h' hlocker => exact hspent _ _ hlocker (held_of_sold hI hstep h h' hlocker)
  | addKey h h' =>
    obtain ⟨-, state, keys, hlocker, hheld, -⟩ :=
      accepted_of_addKey hI hstep h' (by rw [h]; simp)
    exact hspent state keys hlocker hheld

end Chain

/-! ## Runs of a locker -/

section

variable {a : AccountId} {c₀ c : Chain} {tr : List (Transition Chain LockerLabel)}

theorem guarded_of_run (hdeployed : c₀.Deployed a) (hrun : Run (Chain.lockerStep a) c₀ tr c)
    (hG : Meets (Chain.ExportsAlone a) tr) : c.Guarded a :=
  hrun.guarded hdeployed.guarded (fun _ _ _ _ hI hG hstep => hI.step hG hstep) hG

theorem givenAway_of_run (hdeployed : c₀.Deployed a) (hrun : Run (Chain.lockerStep a) c₀ tr c)
    (hG : Meets (Chain.ExportsAlone a) tr) {tr₁ tr₂ : List (Transition Chain LockerLabel)}
    {t : Transition Chain LockerLabel} {id : ℕ} {key : PublicKey} (htr : tr = tr₁ ++ t :: tr₂)
    (hadded : AddsKey a id key t) : c.GivenAway a := by
  obtain ⟨state, keys, -, hafter⟩ := hadded.added
  have haway : t.after.GivenAway a := ⟨state, key :: keys, hafter, List.cons_ne_nil _ _⟩
  -- No step of the run takes the account back from its keys.
  refine hrun.lasting (P := fun s => s.GivenAway a) (fun u hu hstep hbefore => ?_) htr haway
  obtain ⟨tr', hrun', hG', -⟩ := hrun.meets_of_mem hG hu
  exact (guarded_of_run hdeployed hrun' hG').givenAway_of_step hbefore hstep

/-- Every `AddKey` in flight comes from an export the locker accepted. -/
theorem acceptsExport_of_run (hdeployed : c₀.Deployed a)
    (hrun : Run (Chain.lockerStep a) c₀ tr c) (hG : Meets (Chain.ExportsAlone a) tr) {id sent : ℕ}
    {tlaId : AccountId} {name : Str} {key : PublicKey}
    (hget : c.flights.get id = some (.addKey a tlaId name key sent)) :
    ∃ u ∈ tr, AcceptsExport a id key u := by
  obtain ⟨u, hu, hbefore, hafter⟩ :=
    hrun.arose (P := fun s => s.flights.get id = some (.addKey a tlaId name key sent))
      (by simp [hdeployed.2]) hget
  obtain ⟨tr', hrun', hG', hstep⟩ := hrun.meets_of_mem hG hu
  obtain ⟨hcall, state, keys, hlocker, -, howner⟩ :=
    Chain.accepted_of_addKey (guarded_of_run hdeployed hrun' hG') hstep hafter hbefore
  exact ⟨u, hu,
    { before := ⟨tlaId, name, hcall⟩
      after := ⟨tlaId, name, sent, hafter⟩
      owner := ⟨state, keys, hlocker, howner⟩ }⟩

/-- The key that is added is the owner key of the export, and after that the locker uses
its power no more, in every run in which exports go through alone. -/
theorem export_ends_power (hdeployed : c₀.Deployed a) (hrun : Run (Chain.lockerStep a) c₀ tr c)
    (hG : Meets (Chain.ExportsAlone a) tr) {tr₁ tr₂ : List (Transition Chain LockerLabel)}
    {t : Transition Chain LockerLabel} {id : ℕ} {key : PublicKey} (htr : tr = tr₁ ++ t :: tr₂)
    (hadded : AddsKey a id key t) :
    (∃ u ∈ tr₁, AcceptsExport a id key u) ∧ ∀ u ∈ tr₂, ¬ UsesPower a u := by
  refine ⟨?_, ?_⟩
  · obtain ⟨hrun₁, -⟩ := hrun.split htr
    obtain ⟨tlaId, name, sent, hget⟩ := hadded.before
    refine acceptsExport_of_run hdeployed hrun₁ (fun u hu => hG u ?_) hget
    rw [htr]
    exact List.mem_append_left _ hu
  · intro u hu
    obtain ⟨tr₃, tr₄, rfl⟩ := List.append_of_mem hu
    have hsplit : tr = (tr₁ ++ t :: tr₃) ++ u :: tr₄ := by rw [htr]; simp
    obtain ⟨hrun₂, hstep⟩ := hrun.split hsplit
    have hG₂ : Meets (Chain.ExportsAlone a) (tr₁ ++ t :: tr₃) := fun v hv => hG v (by
      rw [hsplit]
      exact List.mem_append_left _ hv)
    exact (guarded_of_run hdeployed hrun₂ hG₂).not_usesPower
      (givenAway_of_run hdeployed hrun₂ hG₂ rfl hadded) hstep

end

/-! ## A sweep that overtakes an export -/

namespace Sample

/-- The account `n.hos` with its locker and five units of a token. -/
def locked : Chain :=
  ((Chain.init genesis).setAccount sub (.locker (.new registry ownerKey) [])).setFtBalance ft sub 5

theorem locked_deployed : locked.Deployed sub := ⟨⟨registry, ownerKey, rfl⟩, rfl⟩

/-- The chain after steps around the locker that go through. -/
def lockerAfter (c : Chain) (ls : List LockerLabel)
    (h : (exec (Chain.lockerStep sub) c ls).isSome = true) : Chain :=
  (exec (Chain.lockerStep sub) c ls).get h

theorem exists_locker_run (c : Chain) (ls : List LockerLabel)
    (h : (exec (Chain.lockerStep sub) c ls).isSome = true) :
    ∃ tr, Run (Chain.lockerStep sub) c tr (lockerAfter c ls h) ∧ tr.map Transition.label = ls :=
  Run.of_exec (Option.some_get h).symm

/-- A sweep is accepted, and the export after it has sent its `AddKey`. -/
def overtaken : List LockerLabel :=
  [.call (.sweepFt ft alice), .resolve 0 true, .call (.export_ tla name), .resolve 1 true]

/-- The sweep runs to its end, and then the export sends its `AddKey`. -/
def sweptFirst : List LockerLabel :=
  [.call (.sweepFt ft alice), .resolve 0 true, .answer 0 .honest, .resolve 0 true, .resolve 0 true,
    .resolve 0 true, .resolve 0 true, .call (.export_ tla name), .resolve 1 true]

end Sample

/-- After the key is added the locker goes on with the sweep. -/
theorem sweep_overtakes_export :
    ∃ tr₁ t tr₂ c, Run (Chain.lockerStep Sample.sub) Sample.locked (tr₁ ++ t :: tr₂) c ∧
      tr₁.map Transition.label = Sample.overtaken ∧ AddsKey Sample.sub 1 Sample.ownerKey t ∧
      ∃ u ∈ tr₂, UsesPower Sample.sub u := by
  let c₁ := Sample.lockerAfter Sample.locked Sample.overtaken (by decide)
  let c₂ := (Chain.lockerStep Sample.sub c₁ (.resolve 1 true)).get (by decide)
  let c₃ := Sample.lockerAfter c₂ [.resolve 1 true, .answer 0 .honest] (by decide)
  let c₄ := c₃.setFlight 0 (.sweepDeposit Sample.sub Sample.ft Sample.alice 5)
  obtain ⟨tr₁, hrun₁, hlabels⟩ := Sample.exists_locker_run Sample.locked Sample.overtaken (by decide)
  obtain ⟨tr₂, hrun₂, -⟩ :=
    Sample.exists_locker_run c₂ [.resolve 1 true, .answer 0 .honest] (by decide)
  have hadd : Chain.lockerStep Sample.sub c₁ (.resolve 1 true) = some c₂ :=
    (Option.some_get _).symm
  have hquery : c₃.flights.get 0 = some (.sweepQueried Sample.sub Sample.ft Sample.alice
    (.successful (encodeU128 5))) := rfl
  have hlocker : c₃.accounts Sample.sub = .locker
    ⟨Sample.registry, Sample.ownerKey, .exported⟩ [Sample.ownerKey] := rfl
  have hbalance : SubAccountLocker.afterBalanceQuery (.successful (encodeU128 5)) = some 5 := by
    decide +kernel
  have hlast : Chain.lockerStep Sample.sub c₃ (.resolve 0 true) = some c₄ := by
    simp only [Chain.lockerStep, Chain.step, hquery, Option.bind_some, Flight.callback,
      Chain.advance, Chain.advanceSweep, hlocker, hbalance]
    rfl
  have hrun := ((hrun₁.snoc hadd).append hrun₂).snoc hlast
  rw [List.append_assoc, List.append_assoc, List.singleton_append] at hrun
  have hdeposit : UsesPower Sample.sub ⟨c₃, .resolve 0 true, c₄⟩ :=
    .storageDeposit hquery (LookupMap.get_insert_self _ _ _)
  refine ⟨tr₁, _, _, c₄, hrun, hlabels, ⟨rfl, ⟨_, _, _, rfl⟩, _, _, rfl, rfl⟩, _, ?_, hdeposit⟩
  simp [c₃]

/-- With the sweep at its end, the key is added and later calls do nothing. -/
theorem export_ends_power_swept :
    ∃ tr₁ t tr₂ c, Run (Chain.lockerStep Sample.sub) Sample.locked (tr₁ ++ t :: tr₂) c ∧
      tr₁.map Transition.label = Sample.sweptFirst ∧ AddsKey Sample.sub 1 Sample.ownerKey t ∧
      tr₂.map Transition.label = [.resolve 1 true, .call (.finalizeDelete Sample.reclaim)] ∧
      (∃ u ∈ tr₁, AcceptsExport Sample.sub 1 Sample.ownerKey u) ∧
      ∀ u ∈ tr₂, ¬ UsesPower Sample.sub u := by
  let c₁ := Sample.lockerAfter Sample.locked Sample.sweptFirst (by decide +kernel)
  let c₂ := (Chain.lockerStep Sample.sub c₁ (.resolve 1 true)).get (by decide +kernel)
  obtain ⟨tr₁, hrun₁, hlabels₁⟩ :=
    Sample.exists_locker_run Sample.locked Sample.sweptFirst (by decide +kernel)
  obtain ⟨tr₂, hrun₂, hlabels₂⟩ :=
    Sample.exists_locker_run c₂ [.resolve 1 true, .call (.finalizeDelete Sample.reclaim)]
      (by decide +kernel)
  have hadd : Chain.lockerStep Sample.sub c₁ (.resolve 1 true) = some c₂ :=
    (Option.some_get _).symm
  have hrun := (hrun₁.snoc hadd).append hrun₂
  have hG : Meets (Chain.ExportsAlone Sample.sub) ((tr₁ ++ [⟨c₁, .resolve 1 true, c₂⟩]) ++ tr₂) := by
    refine hrun.meets_of_checks ?_
    rw [List.map_append, List.map_append, hlabels₁, hlabels₂]
    decide +kernel
  have hadded : AddsKey Sample.sub 1 Sample.ownerKey ⟨c₁, .resolve 1 true, c₂⟩ :=
    ⟨rfl, ⟨_, _, _, rfl⟩, _, _, rfl, rfl⟩
  rw [List.append_assoc] at hrun hG
  exact ⟨tr₁, _, tr₂, _, hrun, hlabels₁, hadded, hlabels₂,
    export_ends_power Sample.locked_deployed hrun hG rfl hadded⟩

end HosTla
