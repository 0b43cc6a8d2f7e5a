-- SUMMARY: Which TLA a call judges an entry by: its own exactly when the name in the call has no dot.
import HosTla.Custody.Refinement

/-!
# Keys and TLAs

An entry is stored under `name.tla_id` with a name that `rent_sub_account` has
checked. Later calls put the key together from any two parts, so a dot in the
name moves the border between name and TLA.
-/

namespace HosTla

open Foundation

/-! ## Keys in custody -/

/-- The key of a held account is a valid name under the TLA of its holder. -/
def Custody.KeyedByTla (s : Custody) : Prop :=
  ∀ key h, s.holder key = some h →
    ∃ name, nameInvalidReason name = none ∧ key = subAccountKey h.tlaId name

theorem Custody.KeyedByTla.apply {s : Custody} {e : CustodyEvent} (h : s.KeyedByTla)
    (hallowed : s.Allowed e) : (s.apply e).KeyedByTla := by
  intro key hd hget
  cases e with
  | keep => exact h key hd hget
  | rent user tlaId name =>
    simp only [Custody.apply, Custody.holder_setHolder, Custody.holder_ensureMother] at hget
    split at hget
    · cases hget
      exact ⟨name, hallowed.2, by assumption⟩
    · exact h key hd hget
  | release k =>
    simp only [Custody.apply, Custody.holder_setHolder] at hget
    split at hget
    · cases hget
    · exact h key hd hget
  | sell k buyer =>
    simp only [Custody.apply, Custody.holder_setHolder] at hget
    split at hget
    · rename_i hk
      rw [Option.map_eq_some_iff] at hget
      obtain ⟨hd₀, hget, rfl⟩ := hget
      exact h key hd₀ (hk ▸ hget)
    · exact h key hd hget
  | designate user m =>
    simp only [Custody.apply, Custody.holder_designate] at hget
    exact h key hd hget
  | clear user =>
    have hsame : (s.apply (.clear user)).holder = s.holder := by
      simp only [Custody.apply]
      cases s.mother user <;> rfl
    exact h key hd (hsame ▸ hget)

theorem Chain.Reached.keyedByTla {g : Genesis} {c : Chain} (h : c.Reached g) :
    c.registry.custody.KeyedByTla := by
  refine h.invariant (I := fun c => c.registry.custody.KeyedByTla) ?_ ?_
  · intro key hd hget
    cases hget
  · intro c l c' hI hstep
    obtain ⟨hallowed, heq⟩ := Chain.custody_step hstep
    rw [heq]
    exact hI.apply hallowed

/-- An entry found under two parts belongs to the TLA among them exactly when
the name among them has no dot. -/
theorem Chain.Reached.tlaId_eq_iff {g : Genesis} {c : Chain} (h : c.Reached g) {tlaId : AccountId}
    {name : Str} {sub : SubAccountEntry}
    (hsub : c.registry.subAccounts.get (subAccountKey tlaId name) = some sub) :
    sub.tlaId = tlaId ↔ '.' ∉ name := by
  obtain ⟨name₀, hname₀, hkey⟩ := h.keyedByTla _ _ (TlaRegistry.custody_holder_of_get hsub)
  exact tlaId_eq_iff_of_subAccountKey_eq (not_mem_dot_of_nameInvalidReason hname₀) hkey

/-! ## Calls that act on an entry -/

/-- The calls that look up an entry and judge it by the TLA of the call. -/
def Op.actsOn : Op → Option (AccountId × Str)
  | .reclaimSweepFt tlaId name _ | .reclaimFinalize tlaId name => some (tlaId, name)
  | .renewSubAccount tlaId name | .listSubAccount tlaId name _ => some (tlaId, name)
  | .acceptOffer tlaId name _ _ | .buySubAccount tlaId name _ => some (tlaId, name)
  | .scheduleRetraction tlaId name => some (tlaId, name)
  | _ => none

/-- The entry the parts lead to belongs to the TLA among them. -/
def TlaRegistry.EntryOfTla (r : TlaRegistry) (tlaId : AccountId) (name : Str) : Prop :=
  ∃ sub, r.subAccounts.get (subAccountKey tlaId name) = some sub ∧ sub.tlaId = tlaId

/-- An accepted call found an entry. -/
theorem Accepted.exists_entry {env : Env} {r : TlaRegistry} {op : Op} {o : Outcome}
    (h : Accepted env r op o) {tlaId : AccountId} {name : Str}
    (hop : op.actsOn = some (tlaId, name)) :
    ∃ sub, r.subAccounts.get (subAccountKey tlaId name) = some sub := by
  cases h with
  | configured hconf => cases op <;> cases hconf <;> cases hop
  | resale hres => cases op <;> cases hres <;> cases hop
  | reclaimSweepFt _ _ _ _ hdest =>
    cases hop
    obtain ⟨sub, -, hsub, -⟩ := TlaRegistry.reclaimDestination_eq_ok.mp hdest
    exact ⟨sub, hsub⟩
  | reclaimFinalize _ _ _ hdest =>
    cases hop
    obtain ⟨sub, -, hsub, -⟩ := TlaRegistry.reclaimDestination_eq_ok.mp hdest
    exact ⟨sub, hsub⟩
  | renewSubAccount _ hsub => cases hop; exact ⟨_, hsub⟩
  | scheduleRetraction _ _ _ _ hsub => cases hop; exact ⟨_, hsub⟩
  | listSubAccount _ _ _ _ hsell =>
    cases hop
    obtain ⟨-, sub, -, -, -, hsub, -⟩ := TlaRegistry.assertSellable_eq_ok.mp hsell
    exact ⟨sub, hsub⟩
  | acceptOffer _ _ _ _ hsell =>
    cases hop
    obtain ⟨-, sub, -, -, -, hsub, -⟩ := TlaRegistry.assertSellable_eq_ok.mp hsell
    exact ⟨sub, hsub⟩
  | buySubAccount _ _ hsell =>
    cases hop
    obtain ⟨-, sub, -, -, -, hsub, -⟩ := TlaRegistry.assertSellable_eq_ok.mp hsell
    exact ⟨sub, hsub⟩
  | _ => cases hop

/-- An accepted call judges the entry by its own TLA exactly when its name has no
dot, and so do the callbacks that remove an entry and adjust a business count. -/
theorem judged_by_own_tla_iff {g : Genesis} {c : Chain} (h : c.Reached g) :
    (∀ predecessor deposit reserve op o tlaId name, op.actsOn = some (tlaId, name) →
      c.callOutcome predecessor deposit reserve op = some o →
        (c.registry.EntryOfTla tlaId name ↔ '.' ∉ name)) ∧
    (∀ id p o sub, c.flights.get id = some (.reclaimFinalized p true) →
      c.callbackOutcome id = some o → c.registry.subAccounts.get p.key = some sub →
        o.registry.businessSubCount = c.registry.releasedCount p.tlaId ∧
          (sub.tlaId = p.tlaId ↔ '.' ∉ p.name)) ∧
    (∀ id tlaId name o sub, c.flights.get id = some (.exportSettled tlaId name true) →
      c.callbackOutcome id = some o →
      c.registry.subAccounts.get (subAccountKey tlaId name) = some sub →
        o.registry.businessSubCount = c.registry.releasedCount tlaId ∧
          (sub.tlaId = tlaId ↔ '.' ∉ name)) := by
  refine ⟨?_, ?_, ?_⟩
  · intro predecessor deposit reserve op o tlaId name hop hcall
    obtain ⟨sub, hsub⟩ := (Chain.accepted_of_callOutcome hcall).2.exists_entry hop
    constructor
    · rintro ⟨sub', hsub', htla⟩
      exact (h.tlaId_eq_iff hsub').mp htla
    · intro hname
      exact ⟨sub, hsub, (h.tlaId_eq_iff hsub).mpr hname⟩
  · intro id p o sub hfl hcallback hsub
    refine ⟨?_, h.tlaId_eq_iff hsub⟩
    cases Chain.settled_of_callbackOutcome hfl hcallback
    rfl
  · intro id tlaId name o sub hfl hcallback hsub
    refine ⟨?_, h.tlaId_eq_iff hsub⟩
    cases Chain.settled_of_callbackOutcome hfl hcallback with
    | exported => rfl
    | exportedAlready hnone => rw [hsub] at hnone; cases hnone

/-! ## A name with a dot -/

namespace Sample

/-- The account `bb.cc`, which is a TLA besides `cc`. -/
def dottedTla : AccountId := ⟨['b', 'b', '.', 'c', 'c'], by decide⟩
def plainTla : AccountId := ⟨['c', 'c'], by decide⟩

/-- Alice rents `n` under `bb.cc`. The TLA `cc` is an active TLA too. -/
def dottedRun : List Label :=
  [call admin 0 (.registerTla dottedTla .open_ .standard none),
    call admin 0 (.activateOpenTla dottedTla),
    call admin 0 (.registerTla plainTla .open_ .standard none),
    call admin 0 (.activateOpenTla plainTla),
    call alice (100 * oneNear) (.rentSubAccount dottedTla name ownerKey alice)]

def dottedName : Str := ['n', '.', 'b', 'b']

end Sample

/-- Alice renews `n.bb` under `cc`. The call is accepted on the entry of `bb.cc`. -/
theorem renewal_judged_by_other_tla :
    ∃ (c : Chain) (o : Outcome), c.Reached Sample.genesis ∧
      c.callOutcome Sample.alice (100 * oneNear) 0
        (.renewSubAccount Sample.plainTla Sample.dottedName) = some o ∧
      ¬ c.registry.EntryOfTla Sample.plainTla Sample.dottedName := by
  refine ⟨Sample.after Sample.dottedRun (by decide +kernel),
    (Chain.callOutcome _ _ _ _ _).get (by decide +kernel), Sample.reached _ _,
    (Option.some_get _).symm, ?_⟩
  rintro ⟨sub, hsub, htla⟩
  have hother : (((Sample.after Sample.dottedRun (by decide +kernel)).registry.subAccounts.get
      (subAccountKey Sample.plainTla Sample.dottedName)).map (·.tlaId)) =
        some Sample.dottedTla := by decide +kernel
  rw [hsub, Option.map_some, htla] at hother
  exact absurd hother (by decide)

/-- The same renewal with the parts the account was rented with. -/
theorem judged_by_own_tla_iff_renewal :
    (Sample.after Sample.dottedRun (by decide +kernel)).registry.EntryOfTla Sample.dottedTla
      Sample.name ↔ '.' ∉ Sample.name :=
  (judged_by_own_tla_iff (Sample.reached Sample.dottedRun (by decide +kernel))).1
    Sample.alice (100 * oneNear) 0 (.renewSubAccount Sample.dottedTla Sample.name)
    ((Chain.callOutcome _ _ _ _ _).get (by decide +kernel)) _ _ rfl (Option.some_get _).symm

end HosTla
