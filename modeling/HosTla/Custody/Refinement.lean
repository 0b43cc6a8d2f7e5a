-- SUMMARY: The registry refines the model of custody: each step of a chain is one event of custody.
import HosTla.Custody.Model
import HosTla.Chain.InFlight

/-!
# The registry keeps custody

The custody of a registry state is read off its maps. A step of the chain changes
it by the event of its label, and the checks of the registry allow that event.
-/

namespace HosTla

open Foundation

def TlaRegistry.custody (r : TlaRegistry) : Custody where
  holder key := (r.subAccounts.get key).map fun sub => ⟨sub.owner, sub.tlaId⟩
  mother a := r.mothers.get a
  uses a := r.getMotherUseCount a

def Op.custodyEvent (predecessor : AccountId) : Op → CustodyEvent
  | .rentSubAccount tlaId name _ _ => .rent predecessor tlaId name
  | .setMother newMother => .designate predecessor newMother
  | .adminClearMother user => .clear user
  | _ => .keep

def Flight.custodyEvent : Flight → CustodyEvent
  | .created p false => .release p.key
  | .reclaimFinalized p true => .release p.key
  | .exportSettled tlaId name true => .release (subAccountKey tlaId name)
  | .sold b true => .sell b.key b.buyer
  | _ => .keep

/-- The event of a step. A rejected call, a panic and a receipt elsewhere are none. -/
def Chain.custodyEvent (c : Chain) : Label → CustodyEvent
  | .call predecessor deposit reserve op =>
    (c.callOutcome predecessor deposit reserve op).elim .keep fun _ =>
      op.custodyEvent predecessor
  | .deliver id _ =>
    (c.callbackOutcome id).elim .keep fun _ =>
      (c.flights.get id).elim .keep Flight.custodyEvent
  | _ => .keep

namespace TlaRegistry

variable {r : TlaRegistry}

theorem custody_holder_eq_some {key : Str} {h : Holder} :
    r.custody.holder key = some h ↔
      ∃ sub, r.subAccounts.get key = some sub ∧ sub.owner = h.owner ∧ sub.tlaId = h.tlaId := by
  unfold custody
  rw [Option.map_eq_some_iff]
  constructor
  · rintro ⟨sub, hsub, rfl⟩
    exact ⟨sub, hsub, rfl, rfl⟩
  · rintro ⟨sub, hsub, howner, htla⟩
    exact ⟨sub, hsub, by rw [howner, htla]⟩

theorem custody_holder_of_get {key : Str} {sub : SubAccountEntry}
    (h : r.subAccounts.get key = some sub) :
    r.custody.holder key = some ⟨sub.owner, sub.tlaId⟩ := by
  simp [custody, h]

theorem custody_holder_eq_none {key : Str} :
    r.custody.holder key = none ↔ r.subAccounts.get key = none := by
  simp [custody]

theorem managed_custody {a : AccountId} :
    r.custody.managed a ↔ r.subAccounts.containsKey a.chars = true := by
  simp [Custody.managed, custody, LookupMap.containsKey]

/-- An update of an entry that keeps owner and TLA keeps its holder. -/
theorem custody_amend {key : Str} {sub sub' : SubAccountEntry}
    (hsub : r.subAccounts.get key = some sub) (howner : sub'.owner = sub.owner)
    (htla : sub'.tlaId = sub.tlaId) :
    ({ r with subAccounts := r.subAccounts.insert key sub' } : TlaRegistry).custody = r.custody := by
  have hholder : ∀ k, ((r.subAccounts.insert key sub').get k).map
      (fun sub => (⟨sub.owner, sub.tlaId⟩ : Holder)) =
        (r.subAccounts.get k).map fun sub => ⟨sub.owner, sub.tlaId⟩ := by
    intro k
    rw [LookupMap.get_insert]
    split
    · subst k; simp [hsub, howner, htla]
    · rfl
  unfold custody
  simp only [hholder]
  rfl

theorem custody_insert (key : Str) (sub : SubAccountEntry) :
    ({ r with subAccounts := r.subAccounts.insert key sub } : TlaRegistry).custody =
      r.custody.setHolder key (some ⟨sub.owner, sub.tlaId⟩) := by
  refine Custody.ext (funext fun k => ?_) rfl rfl
  simp only [custody, Custody.holder_setHolder, LookupMap.get_insert]
  split <;> rfl

theorem custody_remove (key : Str) :
    ({ r with subAccounts := r.subAccounts.remove key } : TlaRegistry).custody =
      r.custody.setHolder key none := by
  refine Custody.ext (funext fun k => ?_) rfl rfl
  simp only [custody, Custody.holder_setHolder, LookupMap.get_remove]
  split <;> rfl

theorem getMotherUseCount_incrementMotherUse (a b : AccountId) :
    (r.incrementMotherUse a).getMotherUseCount b =
      if b = a then satAdd u32Max (r.getMotherUseCount a) 1 else r.getMotherUseCount b := by
  simp only [incrementMotherUse, getMotherUseCount, LookupMap.get_insert]
  split <;> rfl

theorem getMotherUseCount_decrementMotherUse (a b : AccountId) :
    (r.decrementMotherUse a).getMotherUseCount b =
      if b = a then r.getMotherUseCount a - 1 else r.getMotherUseCount b := by
  -- A count that drops to zero is removed, and an absent count reads as zero.
  by_cases hzero : r.getMotherUseCount a - 1 = 0
  · have heq : (r.decrementMotherUse a).motherUseCount = r.motherUseCount.remove a := by
      simp [decrementMotherUse, hzero]
    rw [hzero]
    simp only [getMotherUseCount, heq, LookupMap.get_remove]
    split <;> rfl
  · have heq : (r.decrementMotherUse a).motherUseCount =
        r.motherUseCount.insert a (r.getMotherUseCount a - 1) := by
      simp [decrementMotherUse, hzero]
    simp only [getMotherUseCount] at heq ⊢
    simp only [heq, LookupMap.get_insert]
    split <;> rfl

theorem custody_incrementMotherUse (a : AccountId) :
    (r.incrementMotherUse a).custody = r.custody.use a := by
  refine Custody.ext rfl rfl (funext fun b => ?_)
  rw [Custody.uses_use]
  exact getMotherUseCount_incrementMotherUse a b

theorem custody_decrementMotherUse (a : AccountId) :
    (r.decrementMotherUse a).custody = r.custody.unuse a := by
  refine Custody.ext rfl rfl (funext fun b => ?_)
  rw [Custody.uses_unuse]
  exact getMotherUseCount_decrementMotherUse a b

theorem custody_insertMother (user m : AccountId) :
    ({ r with mothers := r.mothers.insert user m } : TlaRegistry).custody =
      r.custody.setMother user (some m) := by
  refine Custody.ext rfl (funext fun a => ?_) rfl
  rw [Custody.mother_setMother]
  exact LookupMap.get_insert _ _ _ _

theorem custody_removeMother (user : AccountId) :
    ({ r with mothers := r.mothers.remove user } : TlaRegistry).custody =
      r.custody.setMother user none := by
  refine Custody.ext rfl (funext fun a => ?_) rfl
  rw [Custody.mother_setMother]
  exact LookupMap.get_remove _ _ _

theorem custody_ensureMotherDefault (user : AccountId) :
    (r.ensureMotherDefault user).custody = r.custody.ensureMother user := by
  unfold ensureMotherDefault Custody.ensureMother
  have hset : (r.custody.mother user).isSome = r.mothers.containsKey user := rfl
  rw [hset]
  split
  · rfl
  · by_cases hmanaged : r.subAccounts.containsKey user.chars = true
    · rw [if_pos hmanaged, if_pos (managed_custody.mpr hmanaged), custody_incrementMotherUse,
        custody_insertMother]
    · rw [if_neg hmanaged, if_neg (managed_custody.not.mpr hmanaged), custody_insertMother]

theorem custody_replaceMother (user m : AccountId) :
    (r.replaceMother user m).custody = r.custody.designate user m := by
  unfold replaceMother Custody.designate
  have hmother : r.custody.mother user = r.mothers.get user := rfl
  -- Whether the new mother is managed is read before the old one is left.
  have hmanaged : ∀ r' : TlaRegistry,
      (if r.subAccounts.containsKey m.chars = true then
          ({ r' with mothers := r'.mothers.insert user m } : TlaRegistry).incrementMotherUse m
        else { r' with mothers := r'.mothers.insert user m }).custody =
        if r.custody.managed m then (r'.custody.setMother user (some m)).use m
        else r'.custody.setMother user (some m) := by
    intro r'
    by_cases h : r.subAccounts.containsKey m.chars = true
    · rw [if_pos h, if_pos (managed_custody.mpr h), custody_incrementMotherUse,
        custody_insertMother]
    · rw [if_neg h, if_neg (managed_custody.not.mpr h), custody_insertMother]
  rw [hmother]
  cases hold : r.mothers.get user with
  | none => simpa using hmanaged r
  | some old =>
    simp only [Option.some.injEq, Option.elim_some]
    split
    · rfl
    · rw [hmanaged, custody_decrementMotherUse]

end TlaRegistry

/-! ## Steps -/

theorem Accepted.custody {env : Env} {r : TlaRegistry} {op : Op} {o : Outcome}
    (h : Accepted env r op o) :
    r.custody.Allowed (op.custodyEvent env.predecessor) ∧
      o.registry.custody = r.custody.apply (op.custodyEvent env.predecessor) := by
  cases h with
  | configured hop =>
    cases op <;> cases hop <;> exact ⟨trivial, rfl⟩
  | resale hop =>
    cases op <;> cases hop <;> exact ⟨trivial, rfl⟩
  | rentSubAccount hpaused hname hfree =>
    -- The default mother is set before the entry is there, so the new account is no use yet.
    refine ⟨⟨TlaRegistry.custody_holder_eq_none.mpr hfree, hname⟩, ?_⟩
    simp only [Op.custodyEvent, Custody.apply, ← TlaRegistry.custody_ensureMotherDefault]
    rw [TlaRegistry.ensureMotherDefault_eq]
    exact TlaRegistry.custody_insert (r := { r with
      mothers := (r.ensureMotherDefault env.predecessor).mothers
      motherUseCount := (r.ensureMotherDefault env.predecessor).motherUseCount }) _ _
  | setMother hdeposit hpaused hallowed =>
    refine ⟨?_, ?_⟩
    · intro hd hholder
      obtain ⟨sub, hsub, howner, -⟩ := TlaRegistry.custody_holder_eq_some.mp hholder
      rw [← howner]
      exact TlaRegistry.owner_of_assertMotherAllowed hallowed hsub
    · simp only [Op.custodyEvent, Custody.apply, ← TlaRegistry.custody_replaceMother]
      rw [TlaRegistry.replaceMother_eq]
      rfl
  | @adminClearMother user previous hadmin hmother =>
    have hprevious : r.custody.mother user = some previous := hmother
    refine ⟨?_, ?_⟩
    · simp only [Op.custodyEvent, Custody.Allowed, hprevious]
      exact Option.some_ne_none _
    · simp only [Op.custodyEvent, Custody.apply, hprevious, Option.elim_some,
        ← TlaRegistry.custody_removeMother, ← TlaRegistry.custody_decrementMotherUse]
      rfl
  | scheduleRetraction _ _ _ _ hsub => exact ⟨trivial, TlaRegistry.custody_amend hsub rfl rfl⟩
  | cancelRetraction _ _ hsub => exact ⟨trivial, TlaRegistry.custody_amend hsub rfl rfl⟩
  | setMainWallet _ _ _ hsub => exact ⟨trivial, TlaRegistry.custody_amend hsub rfl rfl⟩
  | renewSubAccount _ hsub => exact ⟨trivial, TlaRegistry.custody_amend hsub rfl rfl⟩
  | _ => exact ⟨trivial, rfl⟩

theorem Settled.custody {r : TlaRegistry} {fl : Flight} {o : Outcome} (h : Settled r fl o) :
    r.custody.Allowed fl.custodyEvent ∧ o.registry.custody = r.custody.apply fl.custodyEvent := by
  cases h with
  | creationFailed => exact ⟨trivial, TlaRegistry.custody_remove _⟩
  | reclaimed => exact ⟨trivial, TlaRegistry.custody_remove _⟩
  | exported => exact ⟨trivial, TlaRegistry.custody_remove _⟩
  | @exportedAlready tlaId name hsub =>
    -- The entry is gone already, and releasing a free key changes nothing.
    refine ⟨trivial, Eq.symm (Custody.ext (funext fun k => ?_) rfl rfl)⟩
    simp only [Flight.custodyEvent, Custody.apply, Custody.holder_setHolder]
    split
    · subst k; exact (TlaRegistry.custody_holder_eq_none.mpr hsub).symm
    · rfl
  | @sold b sub hsub =>
    refine ⟨trivial, ?_⟩
    simp only [Flight.custodyEvent, Custody.apply, TlaRegistry.custody_holder_of_get hsub]
    exact TlaRegistry.custody_insert _ _
  | @saleVoid b hsub =>
    refine ⟨trivial, Eq.symm (Custody.ext (funext fun k => ?_) rfl rfl)⟩
    simp only [Flight.custodyEvent, Custody.apply, Custody.holder_setHolder,
      TlaRegistry.custody_holder_eq_none.mpr hsub]
    split
    · subst k; exact (TlaRegistry.custody_holder_eq_none.mpr hsub).symm
    · rfl
  | _ => exact ⟨trivial, rfl⟩

/-- Every step of a chain is its event of custody. -/
theorem Chain.custody_step {c c' : Chain} {l : Label} (h : c.step l = some c') :
    c.registry.custody.Allowed (c.custodyEvent l) ∧
      c'.registry.custody = c.registry.custody.apply (c.custodyEvent l) := by
  cases move_of_step h with
  | rejected hcall =>
    simp only [custodyEvent, hcall]
    exact ⟨trivial, rfl⟩
  | accepted hcall _ _ ho =>
    simp only [custodyEvent, hcall]
    exact ho.custody
  | settled hfl hcallback ho =>
    simp only [custodyEvent, hfl, hcallback]
    exact ho.custody
  | panicked hfl hcallback he =>
    simp only [custodyEvent, hcallback]
    exact ⟨trivial, rfl⟩
  | advanced hfl hcallback _ hadvance =>
    simp only [custodyEvent, hcallback]
    exact ⟨trivial, congrArg _ (advanced_of_advance hadvance).registry⟩
  | answered hfl hanswer => exact ⟨trivial, congrArg _ hanswer.registry⟩
  | _ => exact ⟨trivial, rfl⟩

/-! ## Entries come from rentals -/

/-- Only a rental gives a key its holder. -/
theorem Custody.holder_apply {s : Custody} {e : CustodyEvent} {key : Str}
    (h : (s.apply e).holder key ≠ none) :
    s.holder key ≠ none ∨ ∃ user tlaId name, e = .rent user tlaId name ∧
      key = subAccountKey tlaId name := by
  cases e with
  | rent user tlaId name =>
    by_cases hkey : key = subAccountKey tlaId name
    · exact .inr ⟨user, tlaId, name, rfl, hkey⟩
    · simp only [apply, holder_setHolder, if_neg hkey, holder_ensureMother] at h
      exact .inl h
  | release k =>
    simp only [apply, holder_setHolder] at h
    split at h
    · exact absurd rfl h
    · exact .inl h
  | sell k buyer =>
    simp only [apply, holder_setHolder] at h
    split at h
    · subst k
      exact .inl fun hnone => h (by rw [hnone]; rfl)
    · exact .inl h
  | designate user m =>
    rw [apply, holder_designate] at h
    exact .inl h
  | clear user =>
    refine .inl ?_
    unfold apply at h
    cases hm : s.mother user with
    | none => simpa [hm] using h
    | some m => simpa [hm] using h
  | keep => exact .inl h

/-- The event of a rental is an accepted `rent_sub_account`. -/
theorem Chain.custodyEvent_eq_rent {c : Chain} {l : Label} {user tlaId : AccountId} {name : Str}
    (h : c.custodyEvent l = .rent user tlaId name) :
    ∃ deposit reserve ownerKey mainWallet o,
      l = .call user deposit reserve (.rentSubAccount tlaId name ownerKey mainWallet) ∧
      c.callOutcome user deposit reserve (.rentSubAccount tlaId name ownerKey mainWallet) =
        some o := by
  cases l with
  | call predecessor deposit reserve op =>
    simp only [custodyEvent] at h
    cases hcall : c.callOutcome predecessor deposit reserve op with
    | none => rw [hcall] at h; cases h
    | some o =>
      rw [hcall] at h
      cases op with
      | rentSubAccount => cases h; exact ⟨_, _, _, _, o, rfl, hcall⟩
      | _ => cases h
  | deliver id ok =>
    simp only [custodyEvent] at h
    cases hcallback : c.callbackOutcome id with
    | none => rw [hcallback] at h; cases h
    | some o =>
      rw [hcallback] at h
      cases hfl : c.flights.get id with
      | none => rw [hfl] at h; cases h
      | some fl =>
        rw [hfl, Option.elim_some, Option.elim_some] at h
        -- No callback rents.
        unfold Flight.custodyEvent at h
        split at h <;> cases h
  | _ => cases h

/-- Every entry has a rental on record. -/
theorem System.Reached.rental {g : Genesis} {s : System} (h : s.Reached g) {key : Str}
    {sub : SubAccountEntry} (hsub : s.chain.registry.subAccounts.get key = some sub) :
    ∃ i, s.history.rentals key = some i := by
  let I (s : System) : Prop :=
    ∀ key, s.chain.registry.custody.holder key ≠ none → s.history.rentals key ≠ none
  have hI : I s := by
    refine Reachable.invariant (I := I) ?_ ?_ h
    · intro key hkey
      exact absurd rfl hkey
    · intro s l s' hI hstep key hkey
      rw [(Chain.custody_step (System.step_chain hstep)).2] at hkey
      have hbefore := (Custody.holder_apply hkey).imp_left (hI key)
      rcases System.rentals_of_step hstep with
          ⟨hsame, hnone⟩ | ⟨_, _, _, tlaId, name, _, _, _, hl, -, hupdate⟩
      · rw [hsame]
        rcases hbefore with hbefore | ⟨user, tlaId, name, hevent, -⟩
        · exact hbefore
        · obtain ⟨_, _, _, _, _, hl, hcall⟩ := Chain.custodyEvent_eq_rent hevent
          rw [hnone _ _ _ _ _ _ _ hl] at hcall
          cases hcall
      · rw [hupdate]
        by_cases hk : key = subAccountKey tlaId name
        · subst hk
          rw [Function.update_self]
          exact Option.some_ne_none _
        · rw [Function.update_of_ne hk]
          refine hbefore.resolve_right ?_
          -- A rental of another key is not the one of this step.
          rintro ⟨user, tlaId', name', hevent, rfl⟩
          obtain ⟨_, _, _, _, _, hl', -⟩ := Chain.custodyEvent_eq_rent hevent
          cases hl.symm.trans hl'
          exact hk rfl
  refine Option.ne_none_iff_exists'.mp (hI key ?_)
  rw [TlaRegistry.custody_holder_of_get hsub]
  exact Option.some_ne_none _

end HosTla
