-- SUMMARY: A reclaim deletes no live rental, unless a call in between brings its key back to life.
import HosTla.Chain.InFlight

/-!
# Reclaims

`reclaim_finalize` looks at the lifecycle once. The balance queries, the call to the
locker and the deletion come later, and none of them looks again. Neither time nor a
renewal takes back what the call has seen. Three calls do: a new rental of the name, the
suspension of the TLA, and a fee config with a longer retraction notice. And the call
looks at the TLA it is given, which need not be the one the account was rented under.
-/

namespace HosTla

open Foundation

/-! ## What may be deleted -/

/-- The key has no entry, or one that is reclaimable under its own TLA. -/
def TlaRegistry.MayDelete (r : TlaRegistry) (now : ℕ) (key : Str) : Prop :=
  ∀ sub ∈ r.subAccounts.get key, ∃ tla ∈ r.tlas.get sub.tlaId,
    effectiveSubLifecycle sub tla r.feeConfig.retractionNoticeNs now = .reclaimable

instance (r : TlaRegistry) (now : ℕ) (key : Str) : Decidable (r.MayDelete now key) :=
  inferInstanceAs (Decidable (∀ sub ∈ r.subAccounts.get key, ∃ tla ∈ r.tlas.get sub.tlaId,
    effectiveSubLifecycle sub tla r.feeConfig.retractionNoticeNs now = .reclaimable))

namespace TlaRegistry.MayDelete

variable {r : TlaRegistry} {now now' : ℕ} {key : Str}

theorem mono (h : r.MayDelete now key) (hle : now ≤ now') : r.MayDelete now' key := by
  intro sub hsub
  obtain ⟨tla, htla, hlife⟩ := h sub hsub
  exact ⟨tla, htla, effectiveSubLifecycle_mono hle hlife⟩

theorem remove (h : r.MayDelete now key) (k : Str) :
    { r with subAccounts := r.subAccounts.remove k }.MayDelete now key := by
  intro sub hsub
  obtain ⟨-, hsub⟩ := LookupMap.get_of_get_remove hsub
  exact h sub hsub

/-- An entry under another key. -/
theorem insert_ne (h : r.MayDelete now key) {k : Str} (hne : k ≠ key) (sub' : SubAccountEntry) :
    { r with subAccounts := r.subAccounts.insert k sub' }.MayDelete now key := by
  intro sub hsub
  rcases LookupMap.get_of_get_insert hsub with ⟨hkey, -⟩ | ⟨-, hsub⟩
  · exact absurd hkey.symm hne
  · exact h sub hsub

/-- A change of an entry that leaves it under its TLA, and lapsed if it was. -/
theorem amend (h : r.MayDelete now key) {k : Str} {sub sub' : SubAccountEntry}
    (hsub : r.subAccounts.get k = some sub) (htlaId : sub'.tlaId = sub.tlaId)
    (hkeep : sub.Lapsed r.feeConfig.retractionNoticeNs now →
      sub'.Lapsed r.feeConfig.retractionNoticeNs now) :
    { r with subAccounts := r.subAccounts.insert k sub' }.MayDelete now key := by
  intro sub₁ hsub₁
  rcases LookupMap.get_of_get_insert hsub₁ with ⟨rfl, rfl⟩ | ⟨-, hsub₁⟩
  · obtain ⟨tla, htla, hlife⟩ := h sub hsub
    rw [effectiveSubLifecycle_eq_reclaimable] at hlife
    exact ⟨tla, htlaId ▸ htla, effectiveSubLifecycle_eq_reclaimable.mpr (hlife.imp_right hkeep)⟩
  · exact h sub₁ hsub₁

/-- A change of a TLA that was not itself the cause. -/
theorem insert_tla (h : r.MayDelete now key) {tlaId : AccountId} {tla' : TlaEntry}
    (hlive : ∀ tla ∈ r.tlas.get tlaId, tla.lifecycle now ≠ .reclaimable) :
    { r with tlas := r.tlas.insert tlaId tla' }.MayDelete now key := by
  intro sub hsub
  obtain ⟨tla, htla, hlife⟩ := h sub hsub
  by_cases hid : sub.tlaId = tlaId
  · rw [effectiveSubLifecycle_eq_reclaimable] at hlife
    have hlapsed := hlife.resolve_left (hlive tla (hid ▸ htla))
    refine ⟨tla', ?_, effectiveSubLifecycle_eq_reclaimable.mpr (.inr hlapsed)⟩
    exact hid ▸ LookupMap.get_insert_self _ _ _
  · exact ⟨tla, (LookupMap.get_insert_ne hid).trans htla, hlife⟩

end TlaRegistry.MayDelete

/-- The call leaves the key to its reclaim: it does not rent the name, and the suspended TLA
or the new fee config still lets the account go. -/
def TlaRegistry.Spares (r : TlaRegistry) (now : ℕ) (key : Str) : Op → Prop
  | .rentSubAccount tlaId name _ _ => subAccountKey tlaId name ≠ key
  | .suspendTla tlaId => ∀ tla ∈ r.tlas.get tlaId,
    { r with tlas := r.tlas.insert tlaId { tla with status := .suspended } }.MayDelete now key
  | .updateFeeConfig config => { r with feeConfig := config }.MayDelete now key
  | _ => True

instance (r : TlaRegistry) (now : ℕ) (key : Str) (op : Op) :
    Decidable (r.Spares now key op) := by
  delta TlaRegistry.Spares
  rcases op with _ | _ <;> infer_instance

/-- A call that starts a reclaim does so for an entry that is reclaimable under its own TLA. -/
def TlaRegistry.StartsRightly (r : TlaRegistry) (now : ℕ) : Op → Prop
  | .reclaimFinalize tlaId name => r.MayDelete now (subAccountKey tlaId name)
  | _ => True

instance (r : TlaRegistry) (now : ℕ) (op : Op) : Decidable (r.StartsRightly now op) := by
  delta TlaRegistry.StartsRightly
  rcases op with _ | _ <;> infer_instance

section

variable {env : Env} {r : TlaRegistry} {o : Outcome} {p : PendingReclaim} {key : Str}

theorem TlaEntry.not_reclaimable_of_status {tla : TlaEntry} (h : tla.status ≠ .active) (now : ℕ) :
    tla.lifecycle now ≠ .reclaimable := by
  intro hlife
  exact h (TlaEntry.lifecycle_eq_reclaimable.mp hlife).1

theorem TlaEntry.not_reclaimable_of_lt {tla : TlaEntry} {now : ℕ}
    (h : now < satAdd u64Max tla.expiresAt gracePeriodNs) : tla.lifecycle now ≠ .reclaimable := by
  intro hlife
  exact Nat.not_le.mpr h (TlaEntry.lifecycle_eq_reclaimable.mp hlife).2.2

/-- The same grace bounds the renewal of an entry. -/
theorem SubAccountEntry.not_lapsed {sub : SubAccountEntry} {notice now : ℕ}
    (hret : sub.retractionAt = none)
    (h : now < satAdd u64Max sub.expiresAt gracePeriodNs) : ¬ sub.Lapsed notice now := by
  rintro (⟨t, ht, -⟩ | hexpired)
  · rw [hret] at ht; cases ht
  · rw [SubAccountEntry.lifecycle, expiryLifecycle_eq_reclaimable] at hexpired
    exact Nat.not_le.mpr h hexpired.2

/-- An accepted call keeps what may be deleted, as long as it spares the key. -/
theorem Accepted.mayDelete {op : Op} (h : Accepted env r op o)
    (hmay : r.MayDelete env.blockTimestamp key) (hspares : r.Spares env.blockTimestamp key op) :
    o.registry.MayDelete env.blockTimestamp key := by
  -- Only an active TLA can be past its grace.
  have hstatus {tlaId : AccountId} {tla : TlaEntry} {status : TlaStatus}
      (htla : r.tlas.get tlaId = some tla) (hstatus : tla.status = status)
      (hne : status ≠ .active) :
      ∀ tla ∈ r.tlas.get tlaId, tla.lifecycle env.blockTimestamp ≠ .reclaimable := by
    rintro tla' htla'
    cases htla.symm.trans htla'
    exact TlaEntry.not_reclaimable_of_status (hstatus ▸ hne) _
  cases h with
  | registerTla _ hnew =>
    refine hmay.insert_tla ?_
    intro tla htla
    rw [hnew] at htla
    cases htla
  | suspendTla _ htla => exact hspares _ htla
  | unsuspendTla _ htla hsuspended => exact hmay.insert_tla (hstatus htla hsuspended (by decide))
  | updateFeeConfig => exact hspares
  | activateOpenTla _ htla hregistered =>
    exact hmay.insert_tla (hstatus htla hregistered (by decide))
  | activateTla _ _ _ htla hregistered =>
    exact hmay.insert_tla (hstatus htla hregistered (by decide))
  | renewTla _ _ htla _ htime =>
    refine hmay.insert_tla ?_
    intro tla htla'
    cases htla.symm.trans htla'
    exact TlaEntry.not_reclaimable_of_lt htime
  | rentSubAccount => exact hmay.insert_ne hspares _
  | setMainWallet _ _ _ hsub => exact hmay.amend hsub rfl id
  -- A renewal is refused for an entry that has lapsed on its own.
  | renewSubAccount _ hsub htime _ hret =>
    refine hmay.amend hsub rfl fun hlapsed => ?_
    exact absurd hlapsed (SubAccountEntry.not_lapsed hret htime)
  | scheduleRetraction _ _ _ _ hsub _ hret =>
    refine hmay.amend hsub rfl ?_
    rintro (⟨t, ht, -⟩ | hexpired)
    · rw [hret] at ht; cases ht
    · exact .inr hexpired
  | cancelRetraction _ _ hsub _ hret htime =>
    refine hmay.amend hsub rfl ?_
    rintro (⟨t, ht, helapsed⟩ | hexpired)
    · cases hret.symm.trans ht
      exact absurd helapsed (Nat.not_le.mpr htime)
    · exact .inr hexpired
  | _ => exact hmay

/-- Callbacks remove entries, or hand them over with their dates. -/
theorem Settled.mayDelete {fl : Flight} (h : Settled r fl o) {now : ℕ}
    (hmay : r.MayDelete now key) : o.registry.MayDelete now key := by
  cases h with
  | creationFailed => exact hmay.remove _
  | reclaimed => exact hmay.remove _
  | exported => exact hmay.remove _
  | sold hsub => exact hmay.amend hsub rfl id
  | _ => exact hmay

/-- Only `reclaim_finalize` opens a reclaim. It leaves the registry as it is. -/
theorem Accepted.reclaim_of_deleting {op : Op} (h : Accepted env r op o) {promise : Promise}
    (hpromise : o.promise = some promise) (hdeleting : promise.flight.deleting = some p) :
    op = .reclaimFinalize p.tlaId p.name ∧ o.registry = r := by
  cases h with
  | @reclaimFinalize tlaId _ destination name =>
    cases hpromise
    have hp : p = { tlaId, name, destination } := by
      split at hdeleting
      · exact (Option.some.inj hdeleting).symm
      · exact (Option.some.inj hdeleting).symm
    subst hp
    exact ⟨rfl, rfl⟩
  | resale _ hresale =>
    cases hpromise
    cases promise with
    | checkBalances | finalizeDelete => cases hresale
    | _ => cases hdeleting
  | buySubAccount =>
    cases hpromise
    split at hdeleting <;> cases hdeleting
  | _ => cases hpromise <;> cases hdeleting

/-- No move takes back what may be deleted, except by a call that does not spare the key. -/
theorem Chain.mayDelete_of_move {c c' : Chain} {l : Label} (hmove : c.Move l c')
    (hspares : ∀ predecessor deposit reserve op o, l = .call predecessor deposit reserve op →
      c.callOutcome predecessor deposit reserve op = some o → c.registry.Spares c.now key op)
    (hmay : c.registry.MayDelete c.now key) : c'.registry.MayDelete c'.now key := by
  cases hmove with
  | accepted hcall _ _ ho => exact ho.mayDelete hmay (hspares _ _ _ _ _ rfl hcall)
  | settled _ _ ho => exact ho.mayDelete hmay
  | advanced _ _ _ hadvance =>
    have hadv := Chain.advanced_of_advance hadvance
    rw [hadv.registry, hadv.now]
    exact hmay
  | answered _ hanswer => cases hanswer <;> exact hmay
  | tick hnow => exact hmay.mono hnow
  | _ => exact hmay

end

/-! ## Reclaims in flight -/

/-- Every accepted call spares the keys of the reclaims in flight, and a reclaim is started
for an entry that is reclaimable under its own TLA. -/
def System.KeepsReclaims (s : System) : Label → Prop
  | .call predecessor deposit reserve op =>
    (s.chain.callOutcome predecessor deposit reserve op).isSome →
      s.chain.registry.StartsRightly s.chain.now op ∧
        ∀ p, s.chain.InFlight Flight.deleting p → s.chain.registry.Spares s.chain.now p.key op
  | _ => True

instance (s : System) (l : Label) : Decidable (s.KeepsReclaims l) := by
  delta System.KeepsReclaims
  rcases l with _ | _ <;> infer_instance

/-- What a reclaim in flight is for may still be deleted, in the same rental. -/
def System.Standing (s : System) : Prop :=
  ∀ id fl p, s.chain.flights.get id = some fl → fl.deleting = some p →
    s.chain.registry.MayDelete s.chain.now p.key ∧
      ∃ rec, s.history.opened id = some rec ∧ rec.op = .reclaimFinalize p.tlaId p.name ∧
        rec.rentals p.key = s.history.rentals p.key

namespace System

variable {s s' : System} {l : Label} {p : PendingReclaim}

theorem mayDelete_of_step (hstep : s.step l = some s') (hkeeps : s.KeepsReclaims l)
    (hp : s.chain.InFlight Flight.deleting p)
    (hmay : s.chain.registry.MayDelete s.chain.now p.key) :
    s'.chain.registry.MayDelete s'.chain.now p.key := by
  refine Chain.mayDelete_of_move (Chain.move_of_step (step_chain hstep)) ?_ hmay
  rintro predecessor deposit reserve op o rfl hcall
  exact (hkeeps (by rw [hcall]; rfl)).2 p hp

theorem rentals_of_keepsReclaims (hstep : s.step l = some s') (hkeeps : s.KeepsReclaims l)
    (hp : s.chain.InFlight Flight.deleting p) :
    s'.history.rentals p.key = s.history.rentals p.key := by
  rcases rentals_of_step hstep with ⟨hsame, -⟩ | ⟨_, _, _, _, _, _, _, _, rfl, hcall, hupdate⟩
  · rw [hsame]
  · have hspares := (hkeeps (by rw [hcall]; rfl)).2 p hp
    rw [hupdate]
    exact Function.update_of_ne hspares.symm _ _

theorem Standing.step (h : s.Standing) (hfresh : s.chain.FreshIds) (hkeeps : s.KeepsReclaims l)
    (hstep : s.step l = some s') : s'.Standing := by
  intro id fl p hget hdeleting
  have hmove := Chain.move_of_step (step_chain hstep)
  rcases hmove.carried Flight.deleting_carried hget hdeleting with
      ⟨fl₀, hget₀, hdeleting₀⟩ | ⟨predecessor, deposit, reserve, op, o, promise, rfl, rfl, hcall, -,
        hpromise, rfl⟩
  -- The reclaim was in flight before the step, or the step is the call that opens it.
  · obtain ⟨hmay, rec, hopened, hop, hrentals⟩ := h id fl₀ p hget₀ hdeleting₀
    have hp : s.chain.InFlight Flight.deleting p := ⟨id, fl₀, hget₀, hdeleting₀⟩
    refine ⟨mayDelete_of_step hstep hkeeps hp hmay, rec, ?_, hop, ?_⟩
    · rw [opened_of_step hstep (hfresh _ _ hget₀)]
      exact hopened
    · rw [rentals_of_keepsReclaims hstep hkeeps hp]
      exact hrentals
  · obtain ⟨rfl, hregistry⟩ :=
      (Chain.accepted_of_callOutcome hcall).2.reclaim_of_deleting hpromise hdeleting
    have hmay : s.chain.registry.MayDelete s.chain.now p.key := (hkeeps (by rw [hcall]; rfl)).1
    cases eq_of_accepted hstep hcall
    refine ⟨?_, ⟨s.chain, s.history.rentals, predecessor, deposit, reserve, _⟩,
      Function.update_self _ _ _, rfl, rfl⟩
    show o.registry.MayDelete s.chain.now p.key
    rw [hregistry]
    exact hmay

/-- Reclaims stand in every run that keeps them. -/
theorem standing_of_run {g : Genesis} {tr : List (Transition System Label)}
    (hrun : Run System.step (System.init g) tr s) (hkeeps : Meets KeepsReclaims tr) :
    s.Standing := by
  refine hrun.guarded (I := Standing) ?_ ?_ hkeeps
  · intro id fl p hget
    cases hget
  · intro s l s' hs hstanding hkeeps hstep
    exact hstanding.step (System.Reached.chain hs).freshIds hkeeps hstep

end System

/-! ## Deletion -/

/-- The account is that of the key, the key has no entry or one that is reclaimable under its
own TLA, and its rental is still the one the reclaim was started against. -/
structure RightfulDeletion (s : System) (id : ℕ) (subAccount : AccountId) (p : PendingReclaim) :
    Prop where
  account : subAccount.chars = p.key
  mayDelete : s.chain.registry.MayDelete s.chain.now p.key
  rental : ∃ rec, s.history.opened id = some rec ∧ rec.op = .reclaimFinalize p.tlaId p.name ∧
    rec.rentals p.key = s.history.rentals p.key

/-- In a run in which every reclaim is started for an entry that is reclaimable under its own
TLA, and every call spares the keys of the reclaims in flight, every `delete_account` that is
delivered deletes rightfully. -/
theorem deletes_rightfully_of_run {g : Genesis} {tr : List (Transition System Label)} {s : System}
    (hrun : Run System.step (System.init g) tr s) (hkeeps : Meets System.KeepsReclaims tr) :
    ∀ t ∈ tr, ∀ id ok subAccount p sent, t.label = .deliver id ok →
      t.before.chain.flights.get id = some (.deleteAccount subAccount p sent) →
        RightfulDeletion t.before id subAccount p := by
  intro t ht id ok subAccount p sent _ hfl
  obtain ⟨tr', hrun', hkeeps', -⟩ := hrun.meets_of_mem hkeeps ht
  have hstanding := System.standing_of_run hrun' hkeeps'
  obtain ⟨hmay, hrental⟩ := hstanding id _ p hfl rfl
  have hreached : t.before.chain.Reached g := System.Reached.chain ⟨tr', hrun'⟩
  exact { account := hreached.aimed hfl, mayDelete := hmay, rental := hrental }

/-! ## A second reclaim of the same rental -/

namespace Sample

/-- Alice lets `n.hos` go past its grace, while its TLA is renewed. -/
def lapsed : List Label :=
  rented ++ [call admin (100 * oneNear) (.renewTla tla), .tick (oneYearNs + gracePeriodNs)]

def finalize : Label := call bob 0 (.reclaimFinalize tla name)

/-- One reclaim is on its way to the locker as `delete_account`. -/
def finalized : List Label := lapsed ++ [finalize, .deliver 4 true]

/-- A second one follows it. The first then runs to its end, and Bob rents the name and
has his account. -/
def rentedOver : List Label :=
  lapsed ++ [finalize, finalize, .deliver 4 true, .deliver 5 true, .deliver 4 true,
    .deliver 4 true, rent bob, .deliver 8 true, .deliver 8 true, .deliver 8 true]

def reclaim : PendingReclaim where
  tlaId := tla
  name := name
  destination := alice

end Sample

/-- The second deletion takes Bob's account. -/
theorem reclaim_deletes_later_renter :
    ∃ s s' : System, s.Reached Sample.genesis ∧
      s.chain.flights.get 5 = some (.deleteAccount Sample.sub Sample.reclaim 7) ∧
      s.step (.deliver 5 true) = some s' ∧ s.chain.accounts Sample.sub ≠ .absent ∧
      s'.chain.accounts Sample.sub = .absent ∧
      ¬ RightfulDeletion s 5 Sample.sub Sample.reclaim := by
  refine ⟨Sample.historyAfter Sample.rentedOver (by decide +kernel),
    (System.step _ (.deliver 5 true)).get (by decide +kernel), Sample.history_reached _ _, rfl,
    (Option.some_get _).symm, by decide +kernel, by decide +kernel, ?_⟩
  intro h
  exact absurd h.mayDelete (by decide +kernel)

/-- A single reclaim deletes Alice's account. -/
theorem deletes_rightfully_of_run_finalized :
    ∃ tr : List (Transition System Label),
      tr.map Transition.label = Sample.finalized ++ [.deliver 4 true] ∧
      ∀ t ∈ tr, ∀ id ok subAccount p sent, t.label = .deliver id ok →
        t.before.chain.flights.get id = some (.deleteAccount subAccount p sent) →
          RightfulDeletion t.before id subAccount p := by
  obtain ⟨tr, hrun, hlabels, hkeeps⟩ := Sample.exists_history_run_meets System.KeepsReclaims
    (Sample.finalized ++ [.deliver 4 true]) (by decide +kernel) (by decide +kernel)
  exact ⟨tr, hlabels, deletes_rightfully_of_run hrun hkeeps⟩

end HosTla
