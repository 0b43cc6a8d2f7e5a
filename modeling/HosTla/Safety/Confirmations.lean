-- SUMMARY: The creation callback finds the entry of its rental, as long as no other callback removes it first.
import HosTla.Safety.Charges
import HosTla.Safety.Counters

/-!
# Confirmations

A rental writes its entry before the account exists, and the callback of the creation
reads it back. In between an export or a reclaim may take the entry away. Then the
callback panics after its writes, and the deposit of the renter is credited to nobody.
-/

namespace HosTla

open Foundation

/-- The callback of a creation returns. It records the rent and credits the excess, and
after a failed creation it credits the whole deposit. -/
def Confirms (s s' : System) (id : ℕ) (p : PendingRent) (ok : Bool) : Prop :=
  s'.chain.flights.get id = none ∧ ∃ credits,
    s'.history.credits = s.history.credits ++ credits ∧
    s'.chain.registry.ledger = s.chain.registry.ledger.creditAll u128Max credits ∧
    if ok = true then
      s'.chain.registry.subAccountCount = satAdd u64Max s.chain.registry.subAccountCount 1 ∧
        s'.chain.registry.totalRevenue = satAdd u128Max s.chain.registry.totalRevenue p.rent ∧
        credits = excessCredit p.payer (p.attached -
          satAdd u128Max p.rent s.chain.registry.feeConfig.accountCreationDeposit)
    else credits = [(p.payer, p.attached)]

/-- A callback removes no entry whose rental is still in flight. -/
def System.KeepsEntered (s : System) : Label → Prop
  | .deliver id _ =>
    match s.chain.flights.get id with
    | some (.reclaimFinalized p true) =>
      ∀ q, s.chain.InFlight Flight.renting q → q.key ≠ p.key
    | some (.exportSettled tlaId name true) =>
      ∀ q, s.chain.InFlight Flight.renting q → q.key ≠ subAccountKey tlaId name
    | _ => True
  | _ => True

instance (s : System) (l : Label) : Decidable (s.KeepsEntered l) := by
  delta System.KeepsEntered
  rcases l with _ | ⟨id, _⟩ | _
  · infer_instance
  · dsimp only
    rcases s.chain.flights.get id with _ | (_ | _) <;>
      first | infer_instance | (rename_i ok; rcases ok with _ | _ <;> infer_instance)
  all_goals infer_instance

namespace System

variable {s s' : System}

theorem inFlight_iff_about {α : Type} {f : Flight → Option α} {c : Chain} {x : α} :
    c.InFlight f x ↔ ∃ i, c.about f i = some x := by
  unfold Chain.InFlight Chain.about
  simp only [Option.bind_eq_some_iff]

/-- A callback that removes the entry at a key keeps the entries of the rentals in flight
exactly if it takes none of theirs. -/
theorem Entered.removed_iff (hE : s.Entered) {id : ℕ} {fl : Flight} {o : Outcome} {key : Str}
    (hfl : s.chain.flights.get id = some fl) (hrenting : fl.renting = none)
    (hchain : s'.chain = s.chain.settle id o) (hpromise : o.promise = none)
    (hrentals : s'.history.rentals = s.history.rentals)
    (hentry : ∀ k, o.registry.entryTla k =
      if k = key then none else s.chain.registry.entryTla k) :
    s'.Entered ↔ ∀ q, s.chain.InFlight Flight.renting q → q.key ≠ key := by
  have hreg : s'.chain.registry = o.registry := by rw [hchain]; rfl
  have habout : ∀ i, s'.chain.about Flight.renting i = s.chain.about Flight.renting i :=
    fun i => by
      rw [hchain]
      exact Chain.about_settle hfl (by rw [hrenting, hpromise]; rfl) i
  constructor
  · intro hE' q hq hkey
    -- The rental is in flight as before, and its entry is gone.
    obtain ⟨i, hi⟩ := inFlight_iff_about.mp hq
    have hat := (hE' i q ((habout i).trans hi)).2
    rw [hreg, hentry, if_pos hkey] at hat
    cases hat
  · intro hfree i p hp
    rw [habout i] at hp
    rw [hrentals, hreg, hentry, if_neg (hfree p (inFlight_iff_about.mpr ⟨i, hp⟩))]
    exact hE i p hp

/-- A rental ends with its callback, and the other rentals in flight have other keys. -/
theorem Entered.ended (hE : s.Entered) {id : ℕ} {p : PendingRent} {o : Outcome}
    (hpend : s.chain.about Flight.renting id = some p)
    (hchain : s'.chain = s.chain.settle id o) (hpromise : o.promise = none)
    (hrentals : s'.history.rentals = s.history.rentals)
    (hentry : ∀ k, k ≠ p.key → o.registry.entryTla k = s.chain.registry.entryTla k) :
    s'.Entered := by
  have hended : s'.chain.about Flight.renting id = none := by
    rw [hchain, Chain.about_settle_self, hpromise]
    rfl
  refine hE.of_ended hrentals hended ?_ ?_
  · intro i hi
    rw [hchain]
    exact Chain.about_settle_ne hi
  · intro i q hi hq
    have hreg : s'.chain.registry = o.registry := by rw [hchain]; rfl
    rw [hreg]
    refine hentry q.key fun hkey => hi ?_
    -- Two rentals of one key would both be the one on record.
    have hmine := (hE id p hpend).1
    have hother := (hE i q hq).1
    rw [hkey, hmine] at hother
    exact (Option.some.inj hother).symm

theorem Entered.settled_iff (hE : s.Entered) {id : ℕ} {ok : Bool} {fl : Flight} {o : Outcome}
    (hfl : s.chain.flights.get id = some fl) (hchain : s'.chain = s.chain.settle id o)
    (hrentals : s'.history.rentals = s.history.rentals) (ho : Settled s.chain.registry fl o) :
    s'.Entered ↔ s.KeepsEntered (.deliver id ok) := by
  have hreg : s'.chain.registry = o.registry := by rw [hchain]; rfl
  have hquiet (hentries : ∀ k, o.registry.entryTla k = s.chain.registry.entryTla k)
      (habout : fl.renting = o.promise.bind fun p => p.flight.renting) : s'.Entered := by
    refine hE.of_same (fun k => by rw [hreg]; exact hentries k) hrentals fun i => ?_
    rw [hchain]
    exact Chain.about_settle hfl habout i
  simp only [KeepsEntered, hfl]
  cases ho with
  | created =>
    exact iff_of_true (hE.ended (Chain.about_of_get hfl) hchain rfl hrentals fun _ _ => rfl) trivial
  | @creationFailed p =>
    refine iff_of_true (hE.ended (Chain.about_of_get hfl) hchain rfl hrentals fun k hk => ?_) trivial
    rw [TlaRegistry.entryTla_remove rfl k, if_neg hk]
  | reclaimed => exact hE.removed_iff hfl rfl hchain rfl hrentals (TlaRegistry.entryTla_remove rfl)
  | exported => exact hE.removed_iff hfl rfl hchain rfl hrentals (TlaRegistry.entryTla_remove rfl)
  | @exportedAlready tlaId name hsub =>
    -- A rental in flight has its entry, and at this key there is none.
    refine iff_of_true (hquiet (fun _ => rfl) rfl) fun q hq hkey => ?_
    obtain ⟨i, hi⟩ := inFlight_iff_about.mp hq
    have hat := (hE i q hi).2
    rw [hkey, TlaRegistry.entryTla_eq_none.mpr hsub] at hat
    cases hat
  | @sold b sub hsub =>
    refine iff_of_true (hquiet (fun k => ?_) rfl) trivial
    unfold TlaRegistry.entryTla
    dsimp only
    rw [LookupMap.get_insert]
    split
    · subst k; simp [hsub]
    · rfl
  | _ => exact iff_of_true (hquiet (fun _ => rfl) rfl) trivial

/-- The guard is about the callbacks of removals, and these return. -/
theorem keepsEntered_of_not_settled {id : ℕ} {ok : Bool} {fl : Flight}
    (hfl : s.chain.flights.get id = some fl)
    (hnot : ∀ o, fl.callback s.chain.registry ≠ some (.ok o)) :
    s.KeepsEntered (.deliver id ok) := by
  simp only [KeepsEntered, hfl]
  split
  · rename_i heq
    cases heq
    exact absurd rfl (hnot _)
  · rename_i tlaId name heq
    cases heq
    simp only [Flight.callback, TlaRegistry.onExportSettled] at hnot
    split at hnot <;> exact absurd rfl (hnot _)
  · trivial

/-- A step keeps the entries of the rentals in flight exactly if it meets the guard. -/
theorem Entered.step_iff {g : Genesis} {l : Label} (hreach : s.Reached g) (hE : s.Entered)
    (hstep : s.step l = some s') : s'.Entered ↔ s.KeepsEntered l := by
  cases rentalStep_of_step hreach.chain.freshIds hstep with
  | @rented _ _ _ _ _ _ _ o hl hchain hrentals ho =>
    subst hl
    refine iff_of_true ?_ trivial
    obtain ⟨hcounts, q, hpromise, rfl, hkey⟩ := ho.rentCounts
    have hreg : s'.chain.registry = o.registry := by rw [hchain]; rfl
    rw [← hkey] at hcounts hrentals
    rw [← hreg] at hcounts
    refine hE.rented hcounts hrentals ?_ fun i hi => ?_
    · rw [hchain]
      exact Chain.about_accept_self hpromise
    · rw [hchain]
      exact Chain.about_accept_ne hi
  | settled hl hfl hchain hrentals ho =>
    subst hl
    exact hE.settled_iff hfl hchain hrentals ho
  | quiet hsame hrentals habout hnot =>
    refine iff_of_true (hE.of_same hsame.entries hrentals habout) ?_
    cases l with
    | deliver id ok =>
      cases hfl : s.chain.flights.get id with
      | none => simp only [KeepsEntered, hfl]
      | some fl => exact keepsEntered_of_not_settled hfl (hnot id ok fl rfl hfl)
    | _ => trivial

/-- The callback of a creation returns where the entry of the rental is there. -/
theorem confirms_of_entered (hE : s.Entered) {id : ℕ} {ok ok' : Bool} {p : PendingRent}
    (hfl : s.chain.flights.get id = some (.created p ok'))
    (hstep : s.step (.deliver id ok) = some s') : Confirms s s' id p ok' := by
  have hgone (o : Outcome) (hpromise : o.promise = none) :
      (s.chain.settle id o).flights.get id = none := by
    simp only [Chain.settle, hpromise, Option.elim_none]
    exact LookupMap.get_remove_self _ _
  cases System.delivered_of_step hfl hstep with
  | settled ho hchain hhist =>
    cases ho with
    | created hsub =>
      rw [Confirms, hchain, hhist]
      exact ⟨hgone _ rfl, _, rfl, rfl, rfl, rfl, rfl⟩
    | creationFailed =>
      rw [Confirms, hchain, hhist]
      exact ⟨hgone _ rfl, _, rfl, rfl, rfl⟩
  | panicked he =>
    -- Only the missing entry makes the callback panic.
    have hat := (hE id p (Chain.about_of_get hfl)).2
    obtain ⟨sub, hsub, -⟩ := Option.map_eq_some_iff.mp hat
    rw [PendingRent.key] at hsub
    cases ok' with
    | true =>
      simp only [Flight.callback, TlaRegistry.onSubAccountCreated, if_true,
        Outcome.refundExcess_of, hsub, okOr] at he
      cases he
    | false => cases he
  | advanced hnone => cases hnone

end System

/-- The rentals in flight keep their entries all along a run exactly if no callback of the
run removes one of them. In such a run every callback of a creation returns, records the
rent of the call it goes back to, and credits what the renter gets back. -/
theorem confirmed_of_run {g : Genesis} {tr : List (Transition System Label)} {s : System}
    (hrun : Run System.step (System.init g) tr s) :
    ((∀ t ∈ tr, t.after.Entered) ↔ Meets System.KeepsEntered tr) ∧
      (Meets System.KeepsEntered tr → ∀ t ∈ tr, ∀ id ok p ok', t.label = .deliver id ok →
        t.before.chain.flights.get id = some (.created p ok') →
          (∃ rec o, t.before.history.opened id = some rec ∧ rec.outcome = some o ∧
            RentTerms rec p) ∧ Confirms t.before t.after id p ok') := by
  refine ⟨hrun.exact (System.entered_init g) fun s l s' hs hE hstep => hE.step_iff hs hstep, ?_⟩
  rintro hkeeps ⟨s, l, s'⟩ ht id ok p ok' rfl hfl
  obtain ⟨tr', hrun', hkeeps', hstep⟩ := hrun.meets_of_mem hkeeps ht
  have hE : s.Entered :=
    hrun'.guarded (System.entered_init g)
      (fun s l s' hs hE hG hstep => (hE.step_iff hs hstep).mpr hG) hkeeps'
  have hs : s.Reached g := ⟨tr', hrun'⟩
  exact ⟨hs.rentTerms hfl rfl, System.confirms_of_entered hE hfl hstep⟩

/-! ## An export in between -/

namespace Sample

/-- The account is exported before the callback of its creation. -/
def createdExported : List Label :=
  created ++ [call admin 0 (.exportSubAccount tla name), .deliver 3 true, .deliver 3 true,
    .deliver 3 true, .deliver 3 true]

end Sample

/-- The callback panics: no rent is recorded and Alice is credited nothing. -/
theorem creation_callback_panics :
    ∃ s s' : System, s.Reached Sample.genesis ∧
      s.chain.flights.get 2 = some (.created Sample.pending true) ∧
      s.step (.deliver 2 true) = some s' ∧
      s'.chain.flights.get 2 = some (.panicked (.created Sample.pending true)) ∧
      ¬ Confirms s s' 2 Sample.pending true ∧
      s'.chain.registry.totalRevenue = s.chain.registry.totalRevenue ∧
      s'.chain.registry.getPendingRefund Sample.alice = 0 := by
  refine ⟨Sample.historyAfter Sample.createdExported (by decide +kernel),
    (System.step _ (.deliver 2 true)).get (by decide +kernel), Sample.history_reached _ _, rfl,
    (Option.some_get _).symm, rfl, ?_, by decide +kernel, by decide +kernel⟩
  rintro ⟨hgone, -⟩
  cases hgone

/-- Without the export the callback returns. -/
theorem confirmed_of_run_rented :
    ∃ tr s, Run System.step (System.init Sample.genesis) tr s ∧
      tr.map Transition.label = Sample.rented ∧ Meets System.KeepsEntered tr ∧
      ((∀ t ∈ tr, t.after.Entered) ↔ Meets System.KeepsEntered tr) ∧
      ∀ t ∈ tr, ∀ id ok p ok', t.label = .deliver id ok →
        t.before.chain.flights.get id = some (.created p ok') →
          (∃ rec o, t.before.history.opened id = some rec ∧ rec.outcome = some o ∧
            RentTerms rec p) ∧ Confirms t.before t.after id p ok' := by
  obtain ⟨tr, hrun, hlabels, hkeeps⟩ := Sample.exists_history_run_meets System.KeepsEntered
    Sample.rented (by decide +kernel) (by decide +kernel)
  exact ⟨tr, _, hrun, hlabels, hkeeps, (confirmed_of_run hrun).1, (confirmed_of_run hrun).2 hkeeps⟩

end HosTla
