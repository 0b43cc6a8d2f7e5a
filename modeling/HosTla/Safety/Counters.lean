-- SUMMARY: The counts of the registry count its entries, as long as a removal finds the entry it counts.
import HosTla.Custody.Refinement
import HosTla.Safety.Reclaims

/-!
# Counters

The registry counts the entries whose creation is confirmed, and for each business TLA
all its entries. One count moves before the call to the manager and the other one after
it. The callbacks that take an entry out of the counts are not told which one they count.
-/

namespace HosTla

open Foundation

/-! ## What is counted -/

/-- The creation of the entry is confirmed: the chain of its rental has come to its end. -/
def System.Confirmed (s : System) (key : Str) : Prop :=
  ∃ i ∈ s.history.rentals key, s.chain.about Flight.renting i = none

instance (s : System) (key : Str) : Decidable (s.Confirmed key) :=
  inferInstanceAs (Decidable (∃ i ∈ s.history.rentals key, s.chain.about Flight.renting i = none))

def System.confirmedCount (s : System) : ℕ :=
  s.chain.registry.subAccounts.count fun key _ => s.Confirmed key

def TlaRegistry.entriesUnder (r : TlaRegistry) (tlaId : AccountId) : ℕ :=
  r.subAccounts.count fun _ sub => sub.tlaId = tlaId

/-- The counts are those of the entries, so the cap of a business TLA bounds its entries. -/
structure System.Counted (s : System) : Prop where
  total : s.chain.registry.subAccountCount = s.confirmedCount
  business : ∀ tlaId, s.chain.registry.isBusiness tlaId = true →
    s.chain.registry.getBusinessSubCount tlaId = s.chain.registry.entriesUnder tlaId
  admits : ∀ predecessor deposit reserve tlaId name ownerKey mainWallet,
    s.chain.registry.isBusiness tlaId = true →
      (s.chain.callOutcome predecessor deposit reserve
        (.rentSubAccount tlaId name ownerKey mainWallet)).isSome →
      s.chain.registry.entriesUnder tlaId < s.chain.registry.effectiveBusinessCap tlaId

/-- What the callback takes off the counts is there: a confirmed entry of the TLA it names.
Where there is no entry, there is nothing to take off. -/
def System.RemovesCounted (s : System) (key : Str) (tlaId : AccountId) : Prop :=
  match s.chain.registry.subAccounts.get key with
  | some sub => s.Confirmed key ∧ (sub.tlaId = tlaId ∨
    s.chain.registry.isBusiness sub.tlaId = false ∧ s.chain.registry.isBusiness tlaId = false)
  | none => s.chain.registry.subAccountCount = 0 ∧
    (s.chain.registry.isBusiness tlaId = true → s.chain.registry.getBusinessSubCount tlaId = 0)

instance (s : System) (key : Str) (tlaId : AccountId) : Decidable (s.RemovesCounted key tlaId) := by
  delta System.RemovesCounted
  rcases s.chain.registry.subAccounts.get key with _ | _ <;> infer_instance

/-- A callback that removes an entry finds it counted, and no count is at its end. -/
def System.KeepsCounts (s : System) : Label → Prop
  | .deliver id _ =>
    match s.chain.flights.get id with
    | some (.created _ true) => s.chain.registry.subAccountCount < u64Max
    | some (.reclaimFinalized p true) => s.RemovesCounted p.key p.tlaId
    | some (.exportSettled tlaId name true) =>
      (s.chain.registry.subAccounts.get (subAccountKey tlaId name)).isSome →
        s.RemovesCounted (subAccountKey tlaId name) tlaId
    | _ => True
  | _ => True

instance (s : System) (l : Label) : Decidable (s.KeepsCounts l) := by
  delta System.KeepsCounts
  rcases l with _ | ⟨id, _⟩ | _
  · infer_instance
  · dsimp only
    rcases s.chain.flights.get id with _ | (_ | _) <;>
      first | infer_instance | (rename_i ok; rcases ok with _ | _ <;> infer_instance)
  all_goals infer_instance

/-! ## What the counts read -/

namespace TlaRegistry

/-- The TLA of the entry at the key. -/
def entryTla (r : TlaRegistry) (key : Str) : Option AccountId :=
  (r.subAccounts.get key).map SubAccountEntry.tlaId

def tlaType (r : TlaRegistry) (tlaId : AccountId) : Option TlaType :=
  (r.tlas.get tlaId).map TlaEntry.tlaType

variable {r r' : TlaRegistry}

theorem isBusiness_eq_true {tlaId : AccountId} :
    r.isBusiness tlaId = true ↔ r.tlaType tlaId = some .business := by
  unfold isBusiness tlaType
  cases r.tlas.get tlaId <;> simp

theorem entryTla_eq_custody (key : Str) :
    r.entryTla key = (r.custody.holder key).map Holder.tlaId := by
  unfold entryTla custody
  rw [Option.map_map]
  rfl

theorem entryTla_of_get {key : Str} {sub : SubAccountEntry}
    (hsub : r.subAccounts.get key = some sub) : r.entryTla key = some sub.tlaId := by
  simp [entryTla, hsub]

theorem entryTla_eq_none {key : Str} :
    r.entryTla key = none ↔ r.subAccounts.get key = none := by
  simp [entryTla]

theorem entryTla_remove {key : Str} (h : r'.subAccounts = r.subAccounts.remove key) (k : Str) :
    r'.entryTla k = if k = key then none else r.entryTla k := by
  unfold entryTla
  rw [h, LookupMap.get_remove]
  split <;> rfl

theorem effectiveBusinessCap_le (r : TlaRegistry) (tlaId : AccountId) :
    r.effectiveBusinessCap tlaId ≤ u32Max := by
  have hlt := ((r.businessSubCapOverride.get tlaId).getD r.feeConfig.businessMaxSubs).toNat_lt
  unfold effectiveBusinessCap u32Max
  omega

theorem releasedCount_of_business {released : AccountId} (hb : r.isBusiness released = true)
    (tlaId : AccountId) :
    ((r.releasedCount released).get tlaId).getD 0 =
      if tlaId = released then r.getBusinessSubCount released - 1
      else r.getBusinessSubCount tlaId := by
  -- A count that drops to zero is removed, and an absent count reads as zero.
  by_cases hcount : r.getBusinessSubCount released = 0
  · have heq : r.releasedCount released = r.businessSubCount := by
      simp [releasedCount, hcount]
    rw [heq]
    split
    · subst tlaId; rw [hcount]; exact hcount
    · rfl
  · by_cases hlast : r.getBusinessSubCount released - 1 = 0
    · have heq : r.releasedCount released = r.businessSubCount.remove released := by
        simp [releasedCount, hb, hcount, hlast]
      rw [heq, LookupMap.get_remove, hlast]
      split <;> rfl
    · have heq : r.releasedCount released =
          r.businessSubCount.insert released (r.getBusinessSubCount released - 1) := by
        simp [releasedCount, hb, hcount, hlast]
      rw [heq, LookupMap.get_insert]
      split <;> rfl

theorem releasedCount_of_open {released : AccountId} (hb : r.isBusiness released = false) :
    r.releasedCount released = r.businessSubCount := by
  simp [releasedCount, hb]

end TlaRegistry

/-- Nothing that is counted is different. -/
structure SameCounts (r r' : TlaRegistry) : Prop where
  entries : ∀ key, r'.entryTla key = r.entryTla key
  total : r'.subAccountCount = r.subAccountCount
  business : r'.businessSubCount = r.businessSubCount
  types : ∀ tlaId, r'.tlaType tlaId = r.tlaType tlaId ∨ r.tlas.get tlaId = none

theorem SameCounts.refl (r : TlaRegistry) : SameCounts r r :=
  ⟨fun _ => rfl, rfl, rfl, fun _ => .inl rfl⟩

section

variable {env : Env} {r : TlaRegistry} {op : Op} {o : Outcome}

/-- A TLA keeps its type. -/
theorem Accepted.tlaType (h : Accepted env r op o) (tlaId : AccountId) :
    o.registry.tlaType tlaId = r.tlaType tlaId ∨ r.tlas.get tlaId = none := by
  have hinsert {k : AccountId} {tla tla' : TlaEntry} (htla : r.tlas.get k = some tla)
      (htype : tla'.tlaType = tla.tlaType) :
      ((r.tlas.insert k tla').get tlaId).map TlaEntry.tlaType = r.tlaType tlaId := by
    rw [LookupMap.get_insert]
    split
    · subst k; simp [TlaRegistry.tlaType, htla, htype]
    · rfl
  cases h with
  | @registerTla k _ _ _ _ hnew =>
    by_cases hk : tlaId = k
    · exact .inr (hk ▸ hnew)
    · exact .inl (congrArg _ (LookupMap.get_insert_ne hk))
  | suspendTla _ htla => exact .inl (hinsert htla rfl)
  | unsuspendTla _ htla => exact .inl (hinsert htla rfl)
  | activateOpenTla _ htla => exact .inl (hinsert htla rfl)
  | activateTla _ _ _ htla => exact .inl (hinsert htla rfl)
  | renewTla _ _ htla => exact .inl (hinsert htla rfl)
  | _ => exact .inl rfl

/-- Only a rental changes what is counted. -/
theorem Accepted.sameCounts (h : Accepted env r op o)
    (hop : ∀ tlaId name ownerKey mainWallet, op ≠ .rentSubAccount tlaId name ownerKey mainWallet) :
    SameCounts r o.registry := by
  have hentries : ∀ key, o.registry.entryTla key = r.entryTla key := by
    intro key
    rw [TlaRegistry.entryTla_eq_custody, TlaRegistry.entryTla_eq_custody, h.custody.2]
    refine Custody.tlaId_apply ?_ ?_
    · cases op with
      | rentSubAccount => exact absurd rfl (hop _ _ _ _)
      | _ => simp [Op.custodyEvent]
    · cases op <;> simp [Op.custodyEvent]
  have hcounts : o.registry.subAccountCount = r.subAccountCount ∧
      o.registry.businessSubCount = r.businessSubCount := by
    cases h with
    | rentSubAccount => exact absurd rfl (hop _ _ _ _)
    | _ => exact ⟨rfl, rfl⟩
  exact ⟨hentries, hcounts.1, hcounts.2, h.tlaType⟩

end

/-- What an accepted rental does to what is counted. -/
structure RentCounts (r : TlaRegistry) (tlaId : AccountId) (key : Str) (r' : TlaRegistry) :
    Prop where
  vacant : r.entryTla key = none
  known : r.tlaType tlaId ≠ none
  entries : ∀ k, r'.entryTla k = if k = key then some tlaId else r.entryTla k
  total : r'.subAccountCount = r.subAccountCount
  business : ∀ t, r'.getBusinessSubCount t =
    if t = tlaId ∧ r.isBusiness tlaId = true then r.getBusinessSubCount t + 1
    else r.getBusinessSubCount t
  tlas : r'.tlas = r.tlas

/-- The count stays within the cap, so it does not saturate. -/
theorem Accepted.rentCounts {env : Env} {r : TlaRegistry} {tlaId mainWallet : AccountId}
    {name : Str} {ownerKey : PublicKey} {o : Outcome}
    (h : Accepted env r (.rentSubAccount tlaId name ownerKey mainWallet) o) :
    RentCounts r tlaId (subAccountKey tlaId name) o.registry ∧ ∃ p : PendingRent,
      o.promise = some (.createSubAccount p) ∧ p.tlaId = tlaId ∧
        p.key = subAccountKey tlaId name := by
  cases h with
  | configured hop => cases hop
  | resale hop => cases hop
  | @rentSubAccount _ _ _ _ tla rent hpaused hname hfree hwallet htla haccepting hlicensee hrent
      hpaid hcap =>
    have htype : r.tlaType tlaId = some tla.tlaType := by simp [TlaRegistry.tlaType, htla]
    refine ⟨⟨TlaRegistry.entryTla_eq_none.mpr hfree, by simp [htype], ?_, rfl, ?_, rfl⟩,
      _, rfl, rfl, rfl⟩
    · intro k
      simp only [TlaRegistry.entryTla, Outcome.withPromise, LookupMap.get_insert]
      split <;> rfl
    · intro t
      have hb : r.isBusiness tlaId = true ↔ tla.tlaType = .business := by
        rw [TlaRegistry.isBusiness_eq_true, htype, Option.some.injEq]
      simp only [TlaRegistry.getBusinessSubCount, Outcome.withPromise]
      by_cases hbusiness : tla.tlaType = .business
      · have hlt := hcap hbusiness
        have hmax := r.effectiveBusinessCap_le tlaId
        rw [if_pos hbusiness, LookupMap.get_insert]
        by_cases ht : t = tlaId
        · subst ht
          rw [if_pos rfl, if_pos ⟨rfl, hb.mpr hbusiness⟩]
          exact satAdd_eq (Nat.le_trans hlt hmax)
        · rw [if_neg ht, if_neg fun h => ht h.1]
      · rw [if_neg hbusiness, if_neg fun h => hbusiness (hb.mp h.2)]

/-! ## Counts of the entries -/

namespace System

variable {s s' : System}

/-- The entry at the key is counted in the total. -/
def CountedAt (s : System) (key : Str) : Prop :=
  s.chain.registry.entryTla key ≠ none ∧ s.Confirmed key

theorem countedAt_iff (s : System) (key : Str) :
    (∃ sub ∈ s.chain.registry.subAccounts.get key, s.Confirmed key) ↔ s.CountedAt key := by
  unfold CountedAt TlaRegistry.entryTla
  cases s.chain.registry.subAccounts.get key <;> simp

theorem confirmedCount_congr (h : ∀ key, s'.CountedAt key ↔ s.CountedAt key) :
    s'.confirmedCount = s.confirmedCount :=
  LookupMap.count_congr fun key => by rw [countedAt_iff, countedAt_iff, h key]

theorem confirmedCount_eq_succ {key : Str} (h : ∀ k, k ≠ key → (s'.CountedAt k ↔ s.CountedAt k))
    (hnot : ¬ s.CountedAt key) (hnow : s'.CountedAt key) :
    s'.confirmedCount = s.confirmedCount + 1 := by
  refine LookupMap.count_eq_succ (k := key) ?_ ?_ ?_
  · intro k hk
    rw [countedAt_iff, countedAt_iff, h k hk]
  · rwa [countedAt_iff]
  · rwa [countedAt_iff]

theorem confirmed_of_rental {key : Str} {i : ℕ} (hi : s.history.rentals key = some i) :
    s.Confirmed key ↔ s.chain.about Flight.renting i = none := by
  simp [Confirmed, hi]

/-- The creation of an entry is confirmed as before where its chain is. -/
theorem countedAt_congr {key : Str}
    (hentry : s'.chain.registry.entryTla key = s.chain.registry.entryTla key)
    (hrental : s'.history.rentals key = s.history.rentals key)
    (habout : ∀ i, s.history.rentals key = some i →
      s'.chain.about Flight.renting i = s.chain.about Flight.renting i) :
    s'.CountedAt key ↔ s.CountedAt key := by
  unfold CountedAt Confirmed
  rw [hentry, hrental]
  cases hi : s.history.rentals key with
  | none => simp
  | some i => simp [habout i hi]

end System

namespace TlaRegistry

variable {r r' : TlaRegistry} {tlaId : AccountId}

theorem under_iff (r : TlaRegistry) (tlaId : AccountId) (key : Str) :
    (∃ sub ∈ r.subAccounts.get key, sub.tlaId = tlaId) ↔ r.entryTla key = some tlaId := by
  unfold entryTla
  cases r.subAccounts.get key <;> simp

theorem entriesUnder_congr (h : ∀ key, r'.entryTla key = some tlaId ↔ r.entryTla key = some tlaId) :
    r'.entriesUnder tlaId = r.entriesUnder tlaId :=
  LookupMap.count_congr fun key => by rw [under_iff, under_iff, h key]

theorem entriesUnder_eq_succ {key : Str}
    (h : ∀ k, k ≠ key → (r'.entryTla k = some tlaId ↔ r.entryTla k = some tlaId))
    (hnot : r.entryTla key ≠ some tlaId) (hnow : r'.entryTla key = some tlaId) :
    r'.entriesUnder tlaId = r.entriesUnder tlaId + 1 := by
  refine LookupMap.count_eq_succ (k := key) ?_ ?_ ?_
  · intro k hk
    rw [under_iff, under_iff, h k hk]
  · rwa [under_iff]
  · rwa [under_iff]

/-- The counts of the business TLAs are right. A TLA that is not registered yet has none. -/
def BusinessTallied (r : TlaRegistry) : Prop :=
  ∀ tlaId, r.tlaType tlaId ≠ some .open_ → r.getBusinessSubCount tlaId = r.entriesUnder tlaId

theorem isBusiness_of_registered (hreg : r.tlaType tlaId ≠ none)
    (hopen : r.tlaType tlaId ≠ some .open_) : r.isBusiness tlaId = true := by
  rw [isBusiness_eq_true]
  cases h : r.tlaType tlaId with
  | none => exact absurd h hreg
  | some type =>
    cases type with
    | business => rfl
    | open_ => exact absurd h hopen

/-- A new entry is counted under its TLA where that is a business. -/
theorem BusinessTallied.insert (h : r.BusinessTallied) {key : Str}
    (hcounts : RentCounts r tlaId key r') : r'.BusinessTallied := by
  intro t htype
  have htype' : r'.tlaType t = r.tlaType t := by unfold tlaType; rw [hcounts.tlas]
  rw [htype'] at htype
  have hother : ∀ k, k ≠ key → r'.entryTla k = r.entryTla k := fun k hk => by
    rw [hcounts.entries k, if_neg hk]
  have hnew : r'.entryTla key = some tlaId := by rw [hcounts.entries key, if_pos rfl]
  have hvacant := hcounts.vacant
  rw [hcounts.business]
  by_cases hmine : t = tlaId
  · subst hmine
    rw [if_pos ⟨rfl, isBusiness_of_registered hcounts.known htype⟩, h t htype]
    exact (entriesUnder_eq_succ (fun k hk => by rw [hother k hk]) (by simp [hvacant]) hnew).symm
  · rw [if_neg fun hif => hmine hif.1, h t htype]
    refine (entriesUnder_congr fun k => ?_).symm
    by_cases hk : k = key
    · subst hk
      simp [hnew, hvacant, Ne.symm hmine]
    · rw [hother k hk]

/-- The entry at the key goes, and the count of its TLA with it. -/
theorem BusinessTallied.remove (h : r.BusinessTallied) {key : Str}
    (hentry : ∀ k, r'.entryTla k = if k = key then none else r.entryTla k)
    (htlas : r'.tlas = r.tlas) (hcount : r'.businessSubCount = r.releasedCount tlaId)
    (hreg : ∀ t, r.entryTla key = some t → r.tlaType t ≠ none)
    (hright : ∀ t, r.entryTla key = some t →
      t = tlaId ∨ r.isBusiness t = false ∧ r.isBusiness tlaId = false)
    (hnone : r.entryTla key = none → r.isBusiness tlaId = true →
      r.getBusinessSubCount tlaId = 0) : r'.BusinessTallied := by
  intro t htype
  have htype' : r'.tlaType t = r.tlaType t := by unfold tlaType; rw [htlas]
  rw [htype'] at htype
  have hother : ∀ k, k ≠ key → r'.entryTla k = r.entryTla k := fun k hk => by
    rw [hentry k, if_neg hk]
  have hgone : r'.entryTla key = none := by rw [hentry key, if_pos rfl]
  have hget : r'.getBusinessSubCount t = ((r.releasedCount tlaId).get t).getD 0 := by
    unfold getBusinessSubCount
    rw [hcount]
  rw [hget]
  by_cases hmine : r.entryTla key = some t
  -- The entry was one of this TLA, which is a business, so the count is its own.
  · have hb : r.isBusiness t = true := isBusiness_of_registered (hreg t hmine) htype
    rcases hright t hmine with rfl | ⟨hnot, -⟩
    · rw [releasedCount_of_business hb, if_pos rfl, h t htype]
      have hsucc : r.entriesUnder t = r'.entriesUnder t + 1 :=
        entriesUnder_eq_succ (fun k (hk : k ≠ key) => by rw [hother k hk])
          (by rw [hgone]; simp) hmine
      omega
    · rw [hb] at hnot; cases hnot
  · have hunder : r'.entriesUnder t = r.entriesUnder t := by
      refine entriesUnder_congr fun k => ?_
      by_cases hk : k = key
      · subst hk
        simp [hgone, hmine]
      · rw [hother k hk]
    rw [hunder, ← h t htype]
    cases hb : r.isBusiness tlaId with
    | false => rw [releasedCount_of_open hb]; rfl
    | true =>
      rw [releasedCount_of_business hb]
      split
      · subst t
        -- The count of this TLA moves without an entry, so it was zero.
        cases hat : r.entryTla key with
        | none => rw [hnone hat hb]
        | some t' =>
          rcases hright t' hat with rfl | ⟨-, hnot⟩
          · exact absurd hat hmine
          · rw [hb] at hnot; cases hnot
      · rfl

end TlaRegistry

/-! ## Rentals in flight -/

/-- Every rental in flight is the one on record for its key, and its entry is there. -/
def System.Entered (s : System) : Prop :=
  ∀ i p, s.chain.about Flight.renting i = some p →
    s.history.rentals p.key = some i ∧ s.chain.registry.entryTla p.key = some p.tlaId

namespace System

variable {s s' : System}

theorem entered_init (g : Genesis) : (System.init g).Entered := by
  intro i p hp
  cases hp

theorem Entered.of_same (hE : s.Entered)
    (hentries : ∀ key, s'.chain.registry.entryTla key = s.chain.registry.entryTla key)
    (hrentals : s'.history.rentals = s.history.rentals)
    (habout : ∀ i, s'.chain.about Flight.renting i = s.chain.about Flight.renting i) :
    s'.Entered := by
  intro i p hp
  rw [habout i] at hp
  rw [hrentals, hentries]
  exact hE i p hp

/-- A chain ends, and the rentals still in flight keep their entries. -/
theorem Entered.of_ended (hE : s.Entered) {id : ℕ}
    (hrentals : s'.history.rentals = s.history.rentals)
    (hended : s'.chain.about Flight.renting id = none)
    (habout : ∀ i, i ≠ id → s'.chain.about Flight.renting i = s.chain.about Flight.renting i)
    (hentry : ∀ i p, i ≠ id → s.chain.about Flight.renting i = some p →
      s'.chain.registry.entryTla p.key = s.chain.registry.entryTla p.key) : s'.Entered := by
  intro i p hp
  have hi : i ≠ id := by
    rintro rfl
    rw [hended] at hp
    cases hp
  rw [habout i hi] at hp
  rw [hrentals, hentry i p hi hp]
  exact hE i p hp

/-- A rental takes a vacant key, so no other rental of it is in flight. -/
theorem Entered.rented (hE : s.Entered) {q : PendingRent}
    (hcounts : RentCounts s.chain.registry q.tlaId q.key s'.chain.registry)
    (hrentals : s'.history.rentals =
      Function.update s.history.rentals q.key (some s.chain.nextId))
    (hnew : s'.chain.about Flight.renting s.chain.nextId = some q)
    (habout : ∀ i, i ≠ s.chain.nextId →
      s'.chain.about Flight.renting i = s.chain.about Flight.renting i) : s'.Entered := by
  intro i p hp
  by_cases hi : i = s.chain.nextId
  · subst hi
    rw [hnew] at hp
    cases hp
    rw [hrentals, hcounts.entries, if_pos rfl]
    exact ⟨Function.update_self _ _ _, rfl⟩
  · rw [habout i hi] at hp
    obtain ⟨hold, hat⟩ := hE i p hp
    have hk : p.key ≠ q.key := by
      intro hk
      rw [hk, hcounts.vacant] at hat
      cases hat
    rw [hrentals, Function.update_of_ne hk, hcounts.entries, if_neg hk]
    exact ⟨hold, hat⟩

end System

/-! ## The invariant -/

/-- The counts are right, and the entry of a rental in flight is there. -/
structure System.Tallied (s : System) : Prop where
  total : s.chain.registry.subAccountCount = s.confirmedCount
  business : s.chain.registry.BusinessTallied
  registered : ∀ key tlaId, s.chain.registry.entryTla key = some tlaId →
    s.chain.registry.tlaType tlaId ≠ none
  pending : ∀ i p, s.chain.about Flight.renting i = some p →
    s.history.rentals p.key = some i ∧ s.chain.registry.entryTla p.key = some p.tlaId

namespace System

variable {s s' : System}

theorem tallied_init (g : Genesis) : (System.init g).Tallied where
  total := rfl
  business _ _ := rfl
  registered _ _ h := by cases h
  pending _ _ h := by cases h

/-- The types of the TLAs that have entries stay. -/
theorem Tallied.registered_of (hT : s.Tallied)
    (htypes : ∀ tlaId, s'.chain.registry.tlaType tlaId = s.chain.registry.tlaType tlaId ∨
      s.chain.registry.tlas.get tlaId = none) {key : Str} {tlaId : AccountId}
    (h : s.chain.registry.entryTla key = some tlaId) :
    s'.chain.registry.tlaType tlaId ≠ none := by
  have hreg := hT.registered key tlaId h
  rcases htypes tlaId with hsame | hnew
  · rwa [hsame]
  · exact absurd (by simp [TlaRegistry.tlaType, hnew]) hreg

theorem Tallied.of_same (hT : s.Tallied) (hsame : SameCounts s.chain.registry s'.chain.registry)
    (hrentals : s'.history.rentals = s.history.rentals)
    (habout : ∀ i, s'.chain.about Flight.renting i = s.chain.about Flight.renting i) :
    s'.Tallied where
  total := by
    rw [hsame.total, hT.total]
    exact (confirmedCount_congr fun key =>
      countedAt_congr (hsame.entries key) (by rw [hrentals]) fun i _ => habout i).symm
  business := by
    intro tlaId htype
    have hbefore : s.chain.registry.tlaType tlaId ≠ some .open_ := by
      rcases hsame.types tlaId with heq | hnew
      · rwa [← heq]
      · simp [TlaRegistry.tlaType, hnew]
    have hcount := hT.business tlaId hbefore
    unfold TlaRegistry.getBusinessSubCount at hcount ⊢
    rw [hsame.business, hcount]
    exact (TlaRegistry.entriesUnder_congr fun key => by rw [hsame.entries key]).symm
  registered := by
    intro key tlaId h
    rw [hsame.entries key] at h
    exact hT.registered_of hsame.types h
  pending := Entered.of_same hT.pending hsame.entries hrentals habout

/-- A rental in flight is not counted yet. -/
theorem Tallied.not_countedAt (hT : s.Tallied) {i : ℕ} {p : PendingRent}
    (hp : s.chain.about Flight.renting i = some p) : ¬ s.CountedAt p.key := by
  rintro ⟨-, hconfirmed⟩
  rw [confirmed_of_rental (hT.pending i p hp).1, hp] at hconfirmed
  cases hconfirmed

/-- When a chain ends, the entries at other keys than that of its rental count as before. -/
theorem Tallied.countedAt_of_ended {g : Genesis} (hreach : s.Reached g) (hT : s.Tallied) {id : ℕ}
    {key : Str} (hrentals : s'.history.rentals = s.history.rentals)
    (hkey : ∀ p, s.chain.about Flight.renting id = some p → p.key = key)
    (hended : s'.chain.about Flight.renting id = none)
    (habout : ∀ i, i ≠ id → s'.chain.about Flight.renting i = s.chain.about Flight.renting i)
    {k : Str} (hk : k ≠ key)
    (hentry : s'.chain.registry.entryTla k = s.chain.registry.entryTla k) :
    s'.CountedAt k ↔ s.CountedAt k := by
  refine countedAt_congr hentry (by rw [hrentals]) fun i hi => ?_
  by_cases hid : i = id
  · subst hid
    rw [hended]
    cases hp : s.chain.about Flight.renting i with
    | none => rfl
    | some p =>
      -- The chain that ends is the rental of the key.
      have hpend := (hT.pending i p hp).1
      exact absurd ((hreach.rental_inj hi hpend).trans (hkey p hp)) hk
  · exact habout i hid

/-- A callback that ends its chain and removes the entry at the key. -/
theorem Tallied.removed {g : Genesis} (hreach : s.Reached g) (hT : s.Tallied) {id : ℕ}
    {fl : Flight} {o : Outcome} {key : Str} {tlaId : AccountId}
    (hfl : s.chain.flights.get id = some fl) (hchain : s'.chain = s.chain.settle id o)
    (hpromise : o.promise = none) (hrentals : s'.history.rentals = s.history.rentals)
    (hkey : ∀ p, fl.renting = some p → p.key = key)
    (hstay : ∀ i p, i ≠ id → s.chain.about Flight.renting i = some p → p.key ≠ key)
    (hentry : ∀ k, o.registry.entryTla k = if k = key then none else s.chain.registry.entryTla k)
    (htlas : o.registry.tlas = s.chain.registry.tlas)
    (hcount : o.registry.businessSubCount = s.chain.registry.releasedCount tlaId)
    (htotal : s.CountedAt key ∧
        o.registry.subAccountCount = s.chain.registry.subAccountCount - 1 ∨
      ¬ s.CountedAt key ∧ o.registry.subAccountCount = s.chain.registry.subAccountCount)
    (hright : ∀ t, s.chain.registry.entryTla key = some t →
      t = tlaId ∨ s.chain.registry.isBusiness t = false ∧ s.chain.registry.isBusiness tlaId = false)
    (hnone : s.chain.registry.entryTla key = none → s.chain.registry.isBusiness tlaId = true →
      s.chain.registry.getBusinessSubCount tlaId = 0) : s'.Tallied := by
  have hreg : s'.chain.registry = o.registry := by rw [hchain]; rfl
  have habout : ∀ i, i ≠ id → s'.chain.about Flight.renting i = s.chain.about Flight.renting i :=
    fun i hi => by rw [hchain]; exact Chain.about_settle_ne hi
  have hended : s'.chain.about Flight.renting id = none := by
    rw [hchain, Chain.about_settle_self, hpromise]
    rfl
  have hother : ∀ k, k ≠ key → s'.chain.registry.entryTla k = s.chain.registry.entryTla k :=
    fun k hk => by rw [hreg, hentry k, if_neg hk]
  have hgone : s'.chain.registry.entryTla key = none := by rw [hreg, hentry key, if_pos rfl]
  have hcounted : ∀ k, k ≠ key → (s'.CountedAt k ↔ s.CountedAt k) := fun k hk =>
    hT.countedAt_of_ended hreach hrentals
      (fun p hp => hkey p ((Chain.about_of_get hfl).symm.trans hp)) hended habout hk (hother k hk)
  have hnot : ¬ s'.CountedAt key := fun h => h.1 hgone
  refine ⟨?_, ?_, ?_, ?_⟩
  · rw [hreg]
    rcases htotal with ⟨hat, htotal⟩ | ⟨hat, htotal⟩
    · have hsucc : s.confirmedCount = s'.confirmedCount + 1 :=
        confirmedCount_eq_succ (fun k (hk : k ≠ key) => (hcounted k hk).symm) hnot hat
      rw [htotal, hT.total, hsucc]
      rfl
    · rw [htotal, hT.total]
      refine (confirmedCount_congr fun k => ?_).symm
      by_cases hk : k = key
      · subst hk
        exact iff_of_false hnot hat
      · exact hcounted k hk
  · rw [hreg]
    exact hT.business.remove hentry htlas hcount (hT.registered key) hright hnone
  · intro k t ht
    have hbefore : s.chain.registry.entryTla k = some t := by
      by_cases hk : k = key
      · subst hk; rw [hgone] at ht; cases ht
      · rwa [hother k hk] at ht
    exact hT.registered_of (fun t => .inl (by rw [hreg]; unfold TlaRegistry.tlaType; rw [htlas]))
      hbefore
  · exact Entered.of_ended hT.pending hrentals hended habout fun i p hi hp =>
      hother p.key (hstay i p hi hp)

/-- The creation of an entry is confirmed, and no other entry is touched. -/
theorem Tallied.created {g : Genesis} (hreach : s.Reached g) (hT : s.Tallied) {id : ℕ}
    {p : PendingRent} {o : Outcome} (hfl : s.chain.flights.get id = some (.created p true))
    (hchain : s'.chain = s.chain.settle id o) (hrentals : s'.history.rentals = s.history.rentals)
    (ho : Settled s.chain.registry (.created p true) o)
    (hroom : s.chain.registry.subAccountCount < u64Max) : s'.Tallied := by
  have hpend : s.chain.about Flight.renting id = some p := Chain.about_of_get hfl
  obtain ⟨hrental, hentry⟩ := hT.pending id p hpend
  have habout : ∀ i, i ≠ id → s'.chain.about Flight.renting i = s.chain.about Flight.renting i :=
    fun i hi => by rw [hchain]; exact Chain.about_settle_ne hi
  have hended : s'.chain.about Flight.renting id = none := by
    rw [hchain, Chain.about_settle_self]
    cases ho
    rfl
  have hreg : s'.chain.registry = o.registry := by rw [hchain]; rfl
  have hentries : ∀ k, s'.chain.registry.entryTla k = s.chain.registry.entryTla k := by
    intro k
    rw [hreg]
    cases ho
    rfl
  have hcounted : ∀ k, k ≠ p.key → (s'.CountedAt k ↔ s.CountedAt k) := fun k hk =>
    hT.countedAt_of_ended hreach hrentals (fun q hq => by cases hpend.symm.trans hq; rfl) hended
      habout hk (hentries k)
  have hnow : s'.CountedAt p.key := by
    refine ⟨?_, ?_⟩
    · rw [hentries, hentry]; simp
    · rw [confirmed_of_rental (by rw [hrentals]; exact hrental)]
      exact hended
  refine ⟨?_, ?_, ?_, ?_⟩
  · have hsucc := confirmedCount_eq_succ hcounted (hT.not_countedAt hpend) hnow
    have htotal : s'.chain.registry.subAccountCount = s.chain.registry.subAccountCount + 1 := by
      rw [hreg]
      cases ho
      exact satAdd_eq hroom
    rw [htotal, hT.total, hsucc]
  · rw [hreg]
    intro t htype
    have hcount := hT.business t
    cases ho
    exact hcount htype
  · intro k t ht
    rw [hentries] at ht
    refine hT.registered_of (fun t => .inl ?_) ht
    rw [hreg]
    cases ho
    rfl
  · exact Entered.of_ended hT.pending hrentals hended habout fun _ q _ _ => hentries q.key

/-- A rental adds a pending entry. -/
theorem Tallied.rented {g : Genesis} (hreach : s.Reached g) (hT : s.Tallied)
    {renter tlaId mainWallet : AccountId} {deposit reserve : ℕ} {name : Str} {ownerKey : PublicKey}
    {o : Outcome} (hchain : s'.chain = s.chain.accept deposit o)
    (hrentals : s'.history.rentals =
      Function.update s.history.rentals (subAccountKey tlaId name) (some s.chain.nextId))
    (ho : Accepted (s.chain.callEnv renter deposit reserve) s.chain.registry
      (.rentSubAccount tlaId name ownerKey mainWallet) o) : s'.Tallied := by
  obtain ⟨hcounts, q, hpromise, rfl, hkey⟩ := ho.rentCounts
  rw [← hkey] at hcounts hrentals
  have hreg : s'.chain.registry = o.registry := by rw [hchain]; rfl
  rw [← hreg] at hcounts
  have hentry : s'.chain.registry.entryTla q.key = some q.tlaId := by
    rw [hcounts.entries, if_pos rfl]
  have hother : ∀ k, k ≠ q.key →
      s'.chain.registry.entryTla k = s.chain.registry.entryTla k := fun k hk => by
    rw [hcounts.entries, if_neg hk]
  have hrental : ∀ k, k ≠ q.key → s'.history.rentals k = s.history.rentals k := fun k hk => by
    rw [hrentals, Function.update_of_ne hk]
  have hnew : s'.chain.about Flight.renting s.chain.nextId = some q := by
    rw [hchain]
    exact Chain.about_accept_self hpromise
  have habout : ∀ i, i ≠ s.chain.nextId →
      s'.chain.about Flight.renting i = s.chain.about Flight.renting i := fun i hi => by
    rw [hchain]
    exact Chain.about_accept_ne hi
  refine ⟨?_, hT.business.insert hcounts, ?_, ?_⟩
  · rw [hcounts.total, hT.total]
    refine (confirmedCount_congr fun k => ?_).symm
    by_cases hk : k = q.key
    -- The new entry is not confirmed, and before there was none.
    · subst hk
      refine iff_of_false ?_ fun h => h.1 hcounts.vacant
      rintro ⟨-, hconfirmed⟩
      rw [confirmed_of_rental (by rw [hrentals, Function.update_self]), hnew] at hconfirmed
      cases hconfirmed
    · refine countedAt_congr (hother k hk) (hrental k hk) fun i hi => habout i ?_
      exact Nat.ne_of_lt (hreach.rental_lt hi)
  · intro k t ht
    have htypes : ∀ t, s'.chain.registry.tlaType t = s.chain.registry.tlaType t := fun t => by
      unfold TlaRegistry.tlaType
      rw [hcounts.tlas]
    by_cases hk : k = q.key
    · subst hk
      rw [hentry] at ht
      cases ht
      rw [htypes]
      exact hcounts.known
    · rw [hother k hk] at ht
      exact hT.registered_of (fun t => .inl (htypes t)) ht
  · exact Entered.rented hT.pending hcounts hrentals hnew habout

/-- The removals that the guard is about. -/
theorem Tallied.released {g : Genesis} (hreach : s.Reached g) (hT : s.Tallied) {id : ℕ}
    {fl : Flight} {o : Outcome} {key : Str} {tlaId : AccountId}
    (hfl : s.chain.flights.get id = some fl) (hrenting : fl.renting = none)
    (hchain : s'.chain = s.chain.settle id o) (hpromise : o.promise = none)
    (hrentals : s'.history.rentals = s.history.rentals)
    (hentry : ∀ k, o.registry.entryTla k = if k = key then none else s.chain.registry.entryTla k)
    (htlas : o.registry.tlas = s.chain.registry.tlas)
    (hcount : o.registry.businessSubCount = s.chain.registry.releasedCount tlaId)
    (htotal : o.registry.subAccountCount = s.chain.registry.subAccountCount - 1)
    (hguard : s.RemovesCounted key tlaId) : s'.Tallied := by
  unfold RemovesCounted at hguard
  cases hsub : s.chain.registry.subAccounts.get key with
  | none =>
    rw [hsub] at hguard
    have hvacant := TlaRegistry.entryTla_eq_none.mpr hsub
    refine hT.removed hreach hfl hchain hpromise hrentals (by simp [hrenting]) ?_ hentry htlas
      hcount (.inr ⟨fun h => h.1 hvacant, ?_⟩) ?_ fun _ => hguard.2
    · rintro i p - hp rfl
      rw [(hT.pending i p hp).2] at hvacant
      cases hvacant
    · rw [htotal, hguard.1]
    · intro t ht
      rw [hvacant] at ht
      cases ht
  | some sub =>
    rw [hsub] at hguard
    have hat := TlaRegistry.entryTla_of_get hsub
    refine hT.removed hreach hfl hchain hpromise hrentals (by simp [hrenting]) ?_ hentry htlas
      hcount (.inl ⟨⟨by simp [hat], hguard.1⟩, htotal⟩) ?_ ?_
    · rintro i p - hp rfl
      exact hT.not_countedAt hp ⟨by simp [hat], hguard.1⟩
    · intro t ht
      rw [hat] at ht
      cases ht
      exact hguard.2
    · intro hnone
      rw [hat] at hnone
      cases hnone

/-- A callback of a rental that failed, or of a removal, or one that leaves the counts alone. -/
theorem Tallied.settled {g : Genesis} (hreach : s.Reached g) (hT : s.Tallied) {id : ℕ} {ok : Bool}
    {fl : Flight} {o : Outcome} (hfl : s.chain.flights.get id = some fl)
    (hchain : s'.chain = s.chain.settle id o) (hrentals : s'.history.rentals = s.history.rentals)
    (ho : Settled s.chain.registry fl o) (hG : s.KeepsCounts (.deliver id ok)) : s'.Tallied := by
  have hquiet (hsame : SameCounts s.chain.registry o.registry)
      (habout : fl.renting = o.promise.bind fun p => p.flight.renting) : s'.Tallied := by
    refine hT.of_same (by rw [hchain]; exact hsame) hrentals fun i => ?_
    rw [hchain]
    exact Chain.about_settle hfl habout i
  simp only [KeepsCounts, hfl] at hG
  have hsettled := ho
  cases ho with
  | created hsub => exact hT.created hreach hfl hchain hrentals hsettled hG
  | @creationFailed p =>
    have hpend : s.chain.about Flight.renting id = some p := Chain.about_of_get hfl
    obtain ⟨hrental, hentry⟩ := hT.pending id p hpend
    refine hT.removed hreach hfl hchain rfl hrentals (fun q hq => by cases hq; rfl) ?_
      (TlaRegistry.entryTla_remove rfl) rfl rfl (.inr ⟨hT.not_countedAt hpend, rfl⟩) ?_ ?_
    -- Another rental of the key would have to be the one that is on record.
    · intro i q hi hq hkey
      have hother := (hT.pending i q hq).1
      rw [hkey, hrental] at hother
      cases hother
      exact hi rfl
    · intro t ht
      rw [hentry] at ht
      cases ht
      exact .inl rfl
    · intro hnone
      rw [hentry] at hnone
      cases hnone
  | reclaimed =>
    exact hT.released hreach hfl rfl hchain rfl hrentals (TlaRegistry.entryTla_remove rfl) rfl rfl
      rfl hG
  | exported hsub =>
    exact hT.released hreach hfl rfl hchain rfl hrentals (TlaRegistry.entryTla_remove rfl) rfl rfl
      rfl (hG (by rw [hsub]; rfl))
  | @sold b sub hsub =>
    refine hquiet ⟨fun k => ?_, rfl, rfl, fun _ => .inl rfl⟩ rfl
    unfold TlaRegistry.entryTla
    dsimp only
    rw [LookupMap.get_insert]
    split
    · subst k; simp [hsub]
    · rfl
  | reclaimCleared => exact hquiet (.refl _) rfl
  | saleCleared => exact hquiet (.refl _) rfl
  | _ => exact hquiet ⟨fun _ => rfl, rfl, rfl, fun _ => .inl rfl⟩ rfl

/-- What a step does to the rentals: it accepts one, it settles a callback, or it leaves
them and the counts as they are. -/
inductive RentalStep (s : System) (l : Label) (s' : System) : Prop
  | rented {renter tlaId mainWallet : AccountId} {deposit reserve : ℕ} {name : Str}
      {ownerKey : PublicKey} {o : Outcome}
      (hl : l = .call renter deposit reserve (.rentSubAccount tlaId name ownerKey mainWallet))
      (hchain : s'.chain = s.chain.accept deposit o)
      (hrentals : s'.history.rentals =
        Function.update s.history.rentals (subAccountKey tlaId name) (some s.chain.nextId))
      (ho : Accepted (s.chain.callEnv renter deposit reserve) s.chain.registry
        (.rentSubAccount tlaId name ownerKey mainWallet) o)
  | settled {id : ℕ} {ok : Bool} {fl : Flight} {o : Outcome} (hl : l = .deliver id ok)
      (hfl : s.chain.flights.get id = some fl) (hchain : s'.chain = s.chain.settle id o)
      (hrentals : s'.history.rentals = s.history.rentals) (ho : Settled s.chain.registry fl o)
  | quiet (hsame : SameCounts s.chain.registry s'.chain.registry)
      (hrentals : s'.history.rentals = s.history.rentals)
      (habout : ∀ i, s'.chain.about Flight.renting i = s.chain.about Flight.renting i)
      (hnot : ∀ id ok fl, l = .deliver id ok → s.chain.flights.get id = some fl →
        ∀ o, fl.callback s.chain.registry ≠ some (.ok o))

theorem rentalStep_of_step {l : Label} (hfresh : s.chain.FreshIds) (hstep : s.step l = some s') :
    RentalStep s l s' := by
  have hrentals := System.rentals_of_step hstep
  cases System.moved_of_step hstep with
  | rejected => exact .quiet (.refl _) rfl (fun _ => rfl) (by simp)
  | @accepted _ _ _ op o hcall ho =>
    rcases hrentals with ⟨hsame, hnone⟩ | ⟨_, _, _, _, _, _, _, _, hl, -, hupdate⟩
    · have hop : ∀ tlaId name ownerKey mainWallet,
          op ≠ .rentSubAccount tlaId name ownerKey mainWallet := by
        rintro tlaId name ownerKey mainWallet rfl
        rw [hnone _ _ _ _ _ _ _ rfl] at hcall
        cases hcall
      have hother : ∀ p, o.promise = some p → p.flight.renting = none := by
        intro p hp
        cases hrenting : p.flight.renting with
        | none => rfl
        | some q =>
          obtain ⟨_, _, hrent, -⟩ := ho.rent_of_renting hp hrenting
          exact absurd hrent (hop _ _ _ _)
      exact .quiet (ho.sameCounts hop) hsame (Chain.about_accept hfresh hother) (by simp)
    · cases hl
      exact .rented rfl rfl hupdate ho
  | settled hfl _ ho => exact .settled rfl hfl rfl rfl ho
  | @panicked id _ fl e hfl _ he =>
    refine .quiet (.refl _) (by rw [History.recordReceipt_eq])
      (Chain.about_setFlight hfl (Flight.renting_kept.panicked he)) ?_
    rintro _ _ fl' ⟨⟩ hfl' o ho
    cases hfl.symm.trans hfl'
    cases he.symm.trans ho
  | @advanced id _ fl c' hfl _ hnone hadvance =>
    have hadv := Chain.advanced_of_advance hadvance
    refine .quiet (by rw [hadv.registry]; exact .refl _) (by rw [History.recordReceipt_eq])
      (hadv.about Flight.renting_kept hfresh hfl) ?_
    rintro _ _ fl' ⟨⟩ hfl' o ho
    cases hfl.symm.trans hfl'
    cases hnone.symm.trans ho
  | answered hfl hanswer =>
    exact .quiet (by rw [hanswer.registry]; exact .refl _) rfl
      (hanswer.about Flight.renting_kept hfl) (by simp)
  | _ => exact .quiet (.refl _) rfl (fun _ => rfl) (by simp)

theorem Tallied.step {g : Genesis} {l : Label} (hreach : s.Reached g) (hT : s.Tallied)
    (hG : s.KeepsCounts l) (hstep : s.step l = some s') : s'.Tallied := by
  cases rentalStep_of_step hreach.chain.freshIds hstep with
  | rented _ hchain hrentals ho => exact hT.rented hreach hchain hrentals ho
  | settled hl hfl hchain hrentals ho =>
    subst hl
    exact hT.settled hreach hfl hchain hrentals ho hG
  | quiet hsame hrentals habout => exact hT.of_same hsame hrentals habout

theorem Tallied.counted (hT : s.Tallied) : s.Counted where
  total := hT.total
  business tlaId hb := hT.business tlaId (by rw [TlaRegistry.isBusiness_eq_true.mp hb]; simp)
  admits predecessor deposit reserve tlaId name ownerKey mainWallet hb hcall := by
    obtain ⟨o, ho⟩ := Option.isSome_iff_exists.mp hcall
    rw [← hT.business tlaId (by rw [TlaRegistry.isBusiness_eq_true.mp hb]; simp)]
    cases (Chain.accepted_of_callOutcome ho).2 with
    | configured hop => cases hop
    | resale hop => cases hop
    | rentSubAccount _ _ _ _ htla _ _ _ _ hcap =>
      rw [TlaRegistry.isBusiness_eq_true] at hb
      simp only [TlaRegistry.tlaType, htla, Option.map_some, Option.some.injEq] at hb
      exact hcap hb

end System

/-- In every run whose removals find the entry they count, the counts count. -/
theorem counted_of_run {g : Genesis} {tr : List (Transition System Label)} {s : System}
    (hrun : Run System.step (System.init g) tr s) (hG : Meets System.KeepsCounts tr) :
    s.Counted ∧ ∀ t ∈ tr, t.after.Counted := by
  have htallied {tr' : List (Transition System Label)} {s' : System}
      (hrun' : Run System.step (System.init g) tr' s') (hG' : Meets System.KeepsCounts tr') :
      s'.Tallied :=
    hrun'.guarded (System.tallied_init g)
      (fun s l s' hreach hT hG hstep => hT.step hreach hG hstep) hG'
  refine ⟨(htallied hrun hG).counted, fun t ht => ?_⟩
  obtain ⟨tr', hrun', hG', hstep⟩ := hrun.meets_of_mem hG ht
  exact ((htallied hrun' hG').step ⟨tr', hrun'⟩ (hG t ht) hstep).counted

/-! ## Two removals of one entry -/

namespace Sample

def name₂ : Str := ['m']

/-- Alice has two accounts, and only the TLA is renewed. The account `n.hos` is about to
be deleted. -/
def finalizedFirst : List Label :=
  rented ++ [call alice (100 * oneNear) (.rentSubAccount tla name₂ ownerKey alice),
    .deliver 3 true, .deliver 3 true, .deliver 3 true,
    call admin (100 * oneNear) (.renewTla tla), .tick (oneYearNs + gracePeriodNs), finalize]

/-- Before the reclaim reaches the account it is exported, and answers on its own. -/
def removedTwice : List Label :=
  finalizedFirst ++ [call admin 0 (.exportSubAccount tla name), .deliver 6 true, .deliver 6 true,
    .deliver 6 true, .deliver 6 true, .foreign sub true, .deliver 5 true, .deliver 5 true]

end Sample

/-- One entry is removed and the total goes down by two. -/
theorem entry_removed_twice :
    ∃ s : System, s.Reached Sample.genesis ∧ s.chain.registry.subAccountCount = 0 ∧
      s.confirmedCount = 1 ∧ ¬ s.Counted := by
  let s := Sample.historyAfter Sample.removedTwice (by decide)
  have htotal : s.chain.registry.subAccountCount = 0 := by decide
  have hcount : s.confirmedCount = 1 := by decide
  refine ⟨s, Sample.history_reached _ _, htotal, hcount, fun h => ?_⟩
  have := h.total
  omega

/-- The reclaim of the first account runs to its end. -/
theorem counted_of_run_finalized :
    ∃ tr s, Run System.step (System.init Sample.genesis) tr s ∧
      tr.map Transition.label = Sample.finalizedFirst ++ [.deliver 5 true, .deliver 5 true,
        .deliver 5 true] ∧
      s.chain.registry.subAccountCount = 1 ∧ s.Counted ∧ ∀ t ∈ tr, t.after.Counted := by
  obtain ⟨tr, hrun, hlabels, hG⟩ := Sample.exists_history_run_meets System.KeepsCounts
    (Sample.finalizedFirst ++ [.deliver 5 true, .deliver 5 true, .deliver 5 true])
    (by decide) (by decide)
  exact ⟨tr, _, hrun, hlabels, by decide, counted_of_run hrun hG⟩

end HosTla
