-- SUMMARY: A sale moves a sellable account, unless a call or the clock made it unsellable on the way.
import HosTla.Safety.Sellers

/-!
# Sellable accounts

`buy_sub_account` checks that the account can be sold, and no callback of the sale checks
it again. The lock keeps the records of the key, but not what the check has seen: a
retraction, a new mother, a suspension of the TLA, and the clock all get by it. And the
check looks at the TLA it is given, which need not be the one the account was rented under.
-/

namespace HosTla

open Foundation

/-! ## What `assert_sellable` sees -/

theorem SubAccountEntry.lifecycle_eq_active {sub : SubAccountEntry} {now : ℕ} :
    sub.lifecycle now = .active ↔ now < sub.expiresAt := by
  unfold lifecycle expiryLifecycle
  split
  · simp [*]
  · split <;> simp [*]

theorem effectiveSubLifecycle_eq_active {sub : SubAccountEntry} {tla : TlaEntry}
    {notice now : ℕ} (hret : sub.retractionAt = none) :
    effectiveSubLifecycle sub tla notice now = .active ↔
      tla.lifecycle now ≠ .reclaimable ∧ now < sub.expiresAt := by
  rw [← SubAccountEntry.lifecycle_eq_active]
  unfold effectiveSubLifecycle
  rw [hret]
  split <;> simp [*]

namespace TlaRegistry

/-- The TLA lets its accounts be sold. -/
def TlaOnSale (r : TlaRegistry) (now : ℕ) (tlaId : AccountId) : Prop :=
  ∃ tla ∈ r.tlas.get tlaId, tla.status = .active ∧ tla.lifecycle now ≠ .reclaimable

instance (r : TlaRegistry) (now : ℕ) (tlaId : AccountId) : Decidable (r.TlaOnSale now tlaId) :=
  inferInstanceAs (Decidable (∃ tla ∈ r.tlas.get tlaId,
    tla.status = .active ∧ tla.lifecycle now ≠ .reclaimable))

/-- The entry of the key, if it is there, can be sold under its own TLA. -/
def EntryOnSale (r : TlaRegistry) (now : ℕ) (key : Str) : Prop :=
  ∀ sub ∈ r.subAccounts.get key,
    sub.retractionAt = none ∧ now < sub.expiresAt ∧ r.TlaOnSale now sub.tlaId

/-- The account of the key is out of use, and its entry can be sold. -/
structure OnSale (r : TlaRegistry) (now : ℕ) (key : Str) : Prop where
  account : ∃ a : AccountId, a.chars = key
  unused : ∀ a : AccountId, a.chars = key → r.getMotherUseCount a = 0
  entry : r.EntryOnSale now key

variable {r : TlaRegistry} {key : Str}

/-- The check under any TLA, with what it does not ask of the entry's own. -/
theorem onSale_of_assertSellable {env : Env} {tlaId seller : AccountId}
    (h : r.assertSellable env key tlaId = .ok seller)
    (hown : ∀ sub ∈ r.subAccounts.get key, r.TlaOnSale env.blockTimestamp sub.tlaId) :
    r.OnSale env.blockTimestamp key := by
  obtain ⟨a, sub, tla, ha, hunused, hsub, hret, htla, hstatus, hlife, -⟩ :=
    assertSellable_eq_ok.mp h
  rw [effectiveSubLifecycle_eq_active hret] at hlife
  refine ⟨⟨a, ha⟩, ?_, ?_⟩
  · intro a' ha'
    cases AccountId.chars_injective (ha'.trans ha.symm)
    exact hunused
  · intro sub' hsub'
    cases hsub.symm.trans hsub'
    exact ⟨hret, hlife.2, hown sub hsub⟩

theorem OnSale.assertSellable {env : Env} (h : r.OnSale env.blockTimestamp key)
    {sub : SubAccountEntry} (hsub : r.subAccounts.get key = some sub) :
    r.assertSellable env key sub.tlaId = .ok sub.owner := by
  obtain ⟨a, ha⟩ := h.account
  obtain ⟨hret, hexpires, tla, htla, hstatus, hlife⟩ := h.entry sub hsub
  exact assertSellable_eq_ok.mpr ⟨a, sub, tla, ha, h.unused a ha, hsub, hret, htla, hstatus,
    (effectiveSubLifecycle_eq_active hret).mpr ⟨hlife, hexpires⟩, rfl⟩

end TlaRegistry

/-! ## Calls that spare a sale -/

/-- The accepted call leaves the account of the key sellable: it schedules no retraction
of the key, and it names or suspends nothing a sale of it rests on. -/
def TlaRegistry.SparesSale (r : TlaRegistry) (predecessor : AccountId) (key : Str) : Op → Prop
  | .scheduleRetraction tlaId name => subAccountKey tlaId name ≠ key
  | .setMother newMother => newMother.chars = key → r.subAccounts.get key ≠ none →
    r.mothers.get predecessor = some newMother
  | .suspendTla tlaId => ∀ sub ∈ r.subAccounts.get key, sub.tlaId ≠ tlaId
  | .rentSubAccount _ _ _ _ => predecessor.chars = key → r.subAccounts.get key ≠ none →
    r.mothers.get predecessor ≠ none
  | _ => True

instance (r : TlaRegistry) (predecessor : AccountId) (key : Str) (op : Op) :
    Decidable (r.SparesSale predecessor key op) := by
  delta TlaRegistry.SparesSale
  rcases op with _ | _ <;> infer_instance

/-- A call that starts a sale does so for an entry whose own TLA lets it be sold. -/
def TlaRegistry.SellsRightly (r : TlaRegistry) (now : ℕ) : Op → Prop
  | .buySubAccount tlaId name _ =>
    ∀ sub ∈ r.subAccounts.get (subAccountKey tlaId name), r.TlaOnSale now sub.tlaId
  | _ => True

instance (r : TlaRegistry) (now : ℕ) (op : Op) : Decidable (r.SellsRightly now op) := by
  delta TlaRegistry.SellsRightly
  rcases op with _ | _ <;> infer_instance

/-- Every sale starts under the entry's own TLA, and no accepted call and no time makes the
account of a sale in flight unsellable. -/
def Chain.KeepsSellable (c : Chain) : Label → Prop
  | .call predecessor deposit reserve op =>
    (c.callOutcome predecessor deposit reserve op).isSome →
      c.registry.SellsRightly c.now op ∧
        ∀ b, c.InFlight Flight.selling b → c.registry.SparesSale predecessor b.key op
  | .tick now => ∀ b, c.InFlight Flight.selling b → ∀ sub ∈ c.registry.subAccounts.get b.key,
    ∀ tla ∈ c.registry.tlas.get sub.tlaId,
      effectiveSubLifecycle sub tla c.registry.feeConfig.retractionNoticeNs now = .active
  | _ => True

instance (c : Chain) (l : Label) : Decidable (c.KeepsSellable l) := by
  delta Chain.KeepsSellable
  rcases l with _ | _ <;> infer_instance

section

variable {env : Env} {r : TlaRegistry} {op : Op} {o : Outcome} {key : Str} {now : ℕ}

/-! ### The use count -/

theorem Accepted.unused (h : Accepted env r op o) {a : AccountId}
    (hunused : r.getMotherUseCount a = 0)
    (hadds : r.custody.AddsNoUse a (op.custodyEvent env.predecessor)) :
    o.registry.getMotherUseCount a = 0 := by
  have huses := congrArg (fun s => s.uses a) h.custody.2
  exact huses.trans (Custody.uses_apply_eq_zero hunused hadds)

theorem Settled.unused {fl : Flight} (h : Settled r fl o) {a : AccountId}
    (hunused : r.getMotherUseCount a = 0) : o.registry.getMotherUseCount a = 0 := by
  cases h <;> exact hunused

theorem TlaRegistry.SparesSale.addsNoUse (h : r.SparesSale env.predecessor key op)
    {a : AccountId} (ha : a.chars = key) :
    r.custody.AddsNoUse a (op.custodyEvent env.predecessor) := by
  have hmanaged : r.custody.managed a → r.subAccounts.get key ≠ none := by
    intro hm hnone
    rw [← ha, ← TlaRegistry.custody_holder_eq_none] at hnone
    rw [Custody.managed, hnone] at hm
    cases hm
  cases op with
  | setMother m =>
    rintro rfl hm
    exact h ha (hmanaged hm)
  | rentSubAccount tlaId name =>
    intro huser hm
    have hmother : r.custody.mother env.predecessor ≠ none := h (huser ▸ ha) (hmanaged hm)
    exact Option.isSome_iff_ne_none.mpr hmother
  | _ => trivial

/-! ### The entry -/

namespace TlaRegistry.EntryOnSale

theorem remove (h : r.EntryOnSale now key) (k : Str) :
    { r with subAccounts := r.subAccounts.remove k }.EntryOnSale now key := by
  intro sub hsub
  obtain ⟨-, hsub⟩ := LookupMap.get_of_get_remove hsub
  exact h sub hsub

/-- A change of an entry that leaves it under its TLA, and on sale if it was. -/
theorem amend (h : r.EntryOnSale now key) {k : Str} {sub sub' : SubAccountEntry}
    (hsub : r.subAccounts.get k = some sub) (htlaId : sub'.tlaId = sub.tlaId)
    (hkeep : k = key → sub.retractionAt = none → now < sub.expiresAt →
      sub'.retractionAt = none ∧ now < sub'.expiresAt) :
    { r with subAccounts := r.subAccounts.insert k sub' }.EntryOnSale now key := by
  intro sub₁ hsub₁
  rcases LookupMap.get_of_get_insert hsub₁ with ⟨rfl, rfl⟩ | ⟨-, hsub₁⟩
  · obtain ⟨hret, hexpires, htla⟩ := h sub hsub
    obtain ⟨hret', hexpires'⟩ := hkeep rfl hret hexpires
    exact ⟨hret', hexpires', htlaId ▸ htla⟩
  · exact h sub₁ hsub₁

/-- A change of a TLA that keeps what a sale under it rests on. -/
theorem insert_tla (h : r.EntryOnSale now key) {tlaId : AccountId} {tla' : TlaEntry}
    (hkeep : ∀ sub ∈ r.subAccounts.get key, sub.tlaId = tlaId →
      ∀ tla ∈ r.tlas.get tlaId, tla.status = .active → tla.lifecycle now ≠ .reclaimable →
        tla'.status = .active ∧ tla'.lifecycle now ≠ .reclaimable) :
    { r with tlas := r.tlas.insert tlaId tla' }.EntryOnSale now key := by
  intro sub hsub
  obtain ⟨hret, hexpires, tla, htla, hstatus, hlife⟩ := h sub hsub
  refine ⟨hret, hexpires, ?_⟩
  by_cases hid : sub.tlaId = tlaId
  · obtain ⟨hstatus', hlife'⟩ := hkeep sub hsub hid tla (hid ▸ htla) hstatus hlife
    exact ⟨tla', hid ▸ LookupMap.get_insert_self _ _ _, hstatus', hlife'⟩
  · exact ⟨tla, (LookupMap.get_insert_ne hid).trans htla, hstatus, hlife⟩

end TlaRegistry.EntryOnSale

/-- A year is added to a time that has not passed. -/
theorem lt_satAdd_year {now t : ℕ} (hnow : now < u64Max) :
    now < satAdd u64Max (max now t) oneYearNs := by
  unfold satAdd
  have hyear : 0 < oneYearNs := by decide
  omega

theorem TlaEntry.not_reclaimable_of_lt_expiresAt {tla : TlaEntry} {now : ℕ}
    (h : now < tla.expiresAt) : tla.lifecycle now ≠ .reclaimable := by
  intro hlife
  exact Nat.not_le.mpr h (TlaEntry.lifecycle_eq_reclaimable.mp hlife).2.1

/-! ### Dates fit 64 bits -/

def TlaRegistry.DatesFit (r : TlaRegistry) : Prop :=
  (∀ tlaId, ∀ tla ∈ r.tlas.get tlaId, tla.expiresAt ≤ u64Max) ∧
    ∀ key, ∀ sub ∈ r.subAccounts.get key, sub.expiresAt ≤ u64Max

namespace TlaRegistry.DatesFit

theorem insert_tla (h : r.DatesFit) {tlaId : AccountId} {tla : TlaEntry}
    (htla : tla.expiresAt ≤ u64Max) : { r with tlas := r.tlas.insert tlaId tla }.DatesFit := by
  refine ⟨?_, h.2⟩
  intro t tla' htla'
  rcases LookupMap.get_of_get_insert htla' with ⟨-, rfl⟩ | ⟨-, htla'⟩
  · exact htla
  · exact h.1 t tla' htla'

theorem insert (h : r.DatesFit) {key : Str} {sub : SubAccountEntry}
    (hsub : sub.expiresAt ≤ u64Max) :
    { r with subAccounts := r.subAccounts.insert key sub }.DatesFit := by
  refine ⟨h.1, ?_⟩
  intro k sub' hsub'
  rcases LookupMap.get_of_get_insert hsub' with ⟨-, rfl⟩ | ⟨-, hsub'⟩
  · exact hsub
  · exact h.2 k sub' hsub'

theorem remove (h : r.DatesFit) (key : Str) :
    { r with subAccounts := r.subAccounts.remove key }.DatesFit := by
  refine ⟨h.1, ?_⟩
  intro k sub hsub
  obtain ⟨-, hsub⟩ := LookupMap.get_of_get_remove hsub
  exact h.2 k sub hsub

theorem amend (h : r.DatesFit) {key : Str} {sub sub' : SubAccountEntry}
    (hsub : r.subAccounts.get key = some sub) (hexpires : sub'.expiresAt = sub.expiresAt) :
    { r with subAccounts := r.subAccounts.insert key sub' }.DatesFit :=
  h.insert (Nat.le_trans (Nat.le_of_eq hexpires) (h.2 key sub hsub))

end TlaRegistry.DatesFit

theorem Accepted.datesFit (h : Accepted env r op o) (hfit : r.DatesFit) : o.registry.DatesFit := by
  cases h with
  | registerTla => exact hfit.insert_tla (Nat.zero_le _)
  | @suspendTla _ tla _ htla =>
    have htime : tla.expiresAt ≤ u64Max := hfit.1 _ tla htla
    exact hfit.insert_tla htime
  | @unsuspendTla _ tla _ htla =>
    have htime : tla.expiresAt ≤ u64Max := hfit.1 _ tla htla
    exact hfit.insert_tla htime
  | activateOpenTla => exact hfit.insert_tla (Nat.min_le_right _ _)
  | activateTla => exact hfit.insert_tla (Nat.min_le_right _ _)
  | renewTla => exact hfit.insert_tla (Nat.min_le_right _ _)
  | scheduleRetraction _ _ _ _ hsub => exact hfit.amend hsub rfl
  | cancelRetraction _ _ hsub => exact hfit.amend hsub rfl
  | setMainWallet _ _ _ hsub => exact hfit.amend hsub rfl
  | renewSubAccount => exact hfit.insert (Nat.min_le_right _ _)
  | rentSubAccount => exact hfit.insert (Nat.min_le_right _ _)
  | _ => exact hfit

theorem Settled.datesFit {fl : Flight} (h : Settled r fl o) (hfit : r.DatesFit) :
    o.registry.DatesFit := by
  cases h with
  | creationFailed => exact hfit.remove _
  | reclaimed => exact hfit.remove _
  | exported => exact hfit.remove _
  | sold hsub => exact hfit.amend hsub rfl
  | _ => exact hfit

/-! ### Sales stay on sale -/

/-- An accepted call that spares the sale keeps its entry on sale. Dates fit 64 bits, so a
year that is added to them leaves time. -/
theorem Accepted.entryOnSale (h : Accepted env r op o) (hfit : r.DatesFit)
    (hsale : r.EntryOnSale env.blockTimestamp key) (hspares : r.SparesSale env.predecessor key op) :
    o.registry.EntryOnSale env.blockTimestamp key := by
  have hnow : ∀ sub ∈ r.subAccounts.get key, env.blockTimestamp < u64Max := by
    intro sub hsub
    exact Nat.lt_of_lt_of_le (hsale sub hsub).2.1 (hfit.2 key sub hsub)
  -- A TLA that is not active is not the one the entry is on sale under.
  have hother {tlaId : AccountId} {tla₀ tla' : TlaEntry} {status : TlaStatus}
      (htla : r.tlas.get tlaId = some tla₀) (hstatus : tla₀.status = status)
      (hne : status ≠ .active) :
      { r with tlas := r.tlas.insert tlaId tla' }.EntryOnSale env.blockTimestamp key := by
    refine hsale.insert_tla ?_
    rintro sub - - tla htla' hactive
    cases htla.symm.trans htla'
    exact absurd (hstatus.symm.trans hactive) hne
  cases h with
  | registerTla _ hnew =>
    refine hsale.insert_tla ?_
    rintro sub - - tla htla
    rw [hnew] at htla
    cases htla
  | suspendTla =>
    refine hsale.insert_tla ?_
    intro sub hsub hid
    exact absurd hid (hspares sub hsub)
  | unsuspendTla _ htla hstatus => exact hother htla hstatus (by decide)
  | activateOpenTla _ htla hstatus => exact hother htla hstatus (by decide)
  | activateTla _ _ _ htla hstatus => exact hother htla hstatus (by decide)
  | renewTla _ _ htla hstatus =>
    refine hsale.insert_tla ?_
    rintro sub hsub - tla htla' hactive -
    cases htla.symm.trans htla'
    exact ⟨hactive, TlaEntry.not_reclaimable_of_lt_expiresAt (lt_satAdd_year (hnow sub hsub))⟩
  | scheduleRetraction _ _ _ _ hsub => exact hsale.amend hsub rfl fun hkey => absurd hkey hspares
  | cancelRetraction _ _ hsub _ hret =>
    refine hsale.amend hsub rfl fun _ hnone => ?_
    rw [hret] at hnone
    cases hnone
  | setMainWallet _ _ _ hsub => exact hsale.amend hsub rfl fun _ hret hexpires => ⟨hret, hexpires⟩
  | renewSubAccount _ hsub =>
    refine hsale.amend hsub rfl fun hkey hret _ => ⟨hret, ?_⟩
    rw [hkey] at hsub
    exact lt_satAdd_year (hnow _ hsub)
  -- A new entry has a year to go under a TLA that takes rentals.
  | @rentSubAccount tlaId _ _ _ tla _ _ _ _ _ htla haccepting =>
    simp only [TlaEntry.isAcceptingRentals, Bool.and_eq_true, decide_eq_true_eq] at haccepting
    obtain ⟨hstatus, htime⟩ := haccepting
    intro sub hsub
    rcases LookupMap.get_of_get_insert hsub with ⟨-, rfl⟩ | ⟨-, hsub⟩
    · have hyear := lt_satAdd_year (t := 0) (Nat.lt_of_lt_of_le htime (hfit.1 _ _ htla))
      rw [Nat.max_zero] at hyear
      exact ⟨rfl, hyear, tla, htla, hstatus, TlaEntry.not_reclaimable_of_lt_expiresAt htime⟩
    · exact hsale sub hsub
  | _ => exact hsale

theorem Settled.entryOnSale {fl : Flight} (h : Settled r fl o) (hsale : r.EntryOnSale now key) :
    o.registry.EntryOnSale now key := by
  cases h with
  | creationFailed => exact hsale.remove _
  | reclaimed => exact hsale.remove _
  | exported => exact hsale.remove _
  | sold hsub => exact hsale.amend hsub rfl fun _ hret hexpires => ⟨hret, hexpires⟩
  | _ => exact hsale

end

theorem Chain.Reached.datesFit {g : Genesis} {c : Chain} (h : c.Reached g) :
    c.registry.DatesFit := by
  refine h.registry ?_ (fun _ _ _ _ hfit ho => ho.datesFit hfit)
    fun _ _ _ hfit ho => ho.datesFit hfit
  constructor
  · intro tlaId tla htla
    cases htla
  · intro key sub hsub
    cases hsub

/-! ## Runs -/

namespace Chain

variable {g : Genesis} {c c' : Chain} {l : Label}

/-- Every sale in flight is of an account on sale. -/
def SalesOnSale (c : Chain) : Prop :=
  ∀ b, c.InFlight Flight.selling b → c.registry.OnSale c.now b.key

/-- A step that spares a sale in flight keeps its account on sale. -/
theorem onSale_of_step (hc : c.Reached g) (hstep : c.step l = some c') (hkeeps : c.KeepsSellable l)
    {b : PendingBuy} (hflight : c.InFlight Flight.selling b) (h : c.registry.OnSale c.now b.key) :
    c'.registry.OnSale c'.now b.key := by
  cases move_of_step hstep with
  | accepted hcall _ _ ho =>
    have hspares := (hkeeps (by rw [hcall]; rfl)).2 b hflight
    exact ⟨h.account, fun a ha => ho.unused (h.unused a ha) (hspares.addsNoUse ha),
      ho.entryOnSale hc.datesFit h.entry hspares⟩
  | settled _ _ ho =>
    exact ⟨h.account, fun a ha => ho.unused (h.unused a ha), ho.entryOnSale h.entry⟩
  | advanced _ _ _ hadvance =>
    have hadv := advanced_of_advance hadvance
    rw [hadv.registry, hadv.now]
    exact h
  | answered _ hanswer =>
    cases hanswer <;> exact h
  | tick =>
    refine ⟨h.account, h.unused, ?_⟩
    intro sub hsub
    obtain ⟨hret, -, tla, htla, hstatus, -⟩ := h.entry sub hsub
    have hactive := hkeeps b hflight sub hsub tla htla
    rw [effectiveSubLifecycle_eq_active hret] at hactive
    exact ⟨hret, hactive.2, tla, htla, hstatus, hactive.1⟩
  | _ => exact h

theorem salesOnSale_of_step (hc : c.Reached g) (h : c.SalesOnSale) (hkeeps : c.KeepsSellable l)
    (hstep : c.step l = some c') : c'.SalesOnSale := by
  rintro b ⟨i, fl', hget, hb⟩
  have hmove := move_of_step hstep
  rcases hmove.carried Flight.selling_carried hget hb with ⟨fl, hfl, hb'⟩ |
      ⟨predecessor, deposit, reserve, op, o, p, rfl, rfl, hcall, hbound, hp, rfl⟩
  · have hflight : c.InFlight Flight.selling b := ⟨i, fl, hfl, hb'⟩
    exact onSale_of_step hc hstep hkeeps hflight (h b hflight)
  -- A new sale has just passed the check, and the buy changes nothing the check reads.
  · obtain ⟨-, ho⟩ := accepted_of_callOutcome hcall
    obtain ⟨seller, hop, -, -, -, hsell, -⟩ := ho.buy_of_selling hp hb
    have hrightly := (hkeeps (by rw [hcall]; rfl)).1
    rw [hop] at hrightly
    have hsale : c.registry.OnSale c.now b.key :=
      TlaRegistry.onSale_of_assertSellable hsell hrightly
    simp only [step, hbound, if_true, hcall, Option.elim_some, Option.some.injEq] at hstep
    subst hstep
    subst hop
    cases ho with
    | buySubAccount => exact ⟨hsale.account, hsale.unused, hsale.entry⟩
    | configured hop => cases hop
    | resale hop => cases hop

theorem salesOnSale_of_run {tr : List (Transition Chain Label)}
    (hrun : Run step (init g) tr c) (hkeeps : Meets KeepsSellable tr) : c.SalesOnSale := by
  refine hrun.guarded (I := SalesOnSale) ?_ ?_ hkeeps
  · rintro b ⟨i, fl, hget, -⟩
    cases hget
  · intro c l c' hc h hkeeps hstep
    exact salesOnSale_of_step hc h hkeeps hstep

end Chain

/-- In a run in which sales start under the TLA of the entry and nothing makes the account of
a sale in flight unsellable, the check of the buy would still pass at every callback that moves
ownership, under the entry's own TLA. -/
theorem sold_sellable_of_run {g : Genesis} {tr : List (Transition Chain Label)} {c : Chain}
    (hrun : Run Chain.step (Chain.init g) tr c) (hkeeps : Meets Chain.KeepsSellable tr) :
    ∀ t ∈ tr, ∀ id ok b sub, t.label = .deliver id ok →
      t.before.flights.get id = some (.sold b true) →
      t.before.registry.subAccounts.get b.key = some sub → ∀ predecessor deposit reserve,
        t.before.registry.assertSellable (t.before.callEnv predecessor deposit reserve) b.key
          sub.tlaId = .ok sub.owner := by
  intro t ht id ok b sub _ hfl hsub predecessor deposit reserve
  obtain ⟨tr', hrun', hkeeps', -⟩ := hrun.meets_of_mem hkeeps ht
  have hsales := Chain.salesOnSale_of_run hrun' hkeeps'
  have honsale : t.before.registry.OnSale
      (t.before.callEnv predecessor deposit reserve).blockTimestamp b.key :=
    hsales b ⟨id, _, hfl, rfl⟩
  exact honsale.assertSellable hsub

/-! ## A seller that anchors the account -/

namespace Sample

/-- Alice makes the account she has sold her mother. -/
def boughtAnchored : List Label := bought ++ [call alice 1 (.setMother sub)]

end Sample

/-- The callback moves ownership of an account that is in use. -/
theorem unsellable_account_sold :
    ∃ c c' : Chain, c.Reached Sample.genesis ∧
      c.flights.get 4 = some (.sold Sample.purchase true) ∧ c.step (.deliver 4 true) = some c' ∧
      (c.registry.subAccounts.get Sample.purchase.key).map SubAccountEntry.owner =
        some Sample.alice ∧
      (c'.registry.subAccounts.get Sample.purchase.key).map SubAccountEntry.owner =
        some Sample.bob ∧
      c.registry.assertSellable (c.callEnv Sample.bob 5 0) Sample.purchase.key
        Sample.purchase.tlaId = .error .subAccountIsMother := by
  refine ⟨Sample.after Sample.boughtAnchored (by decide +kernel),
    (Chain.step _ (.deliver 4 true)).get (by decide +kernel), Sample.reached _ _, rfl,
    (Option.some_get _).symm, by decide +kernel, by decide +kernel, by rfl⟩

/-- Without the call of Alice the account is sellable at the callback. -/
theorem sold_sellable_of_run_bought :
    ∃ tr c, Run Chain.step (Chain.init Sample.genesis) tr c ∧
      ∀ t ∈ tr, ∀ id ok b sub, t.label = .deliver id ok →
        t.before.flights.get id = some (.sold b true) →
        t.before.registry.subAccounts.get b.key = some sub → ∀ predecessor deposit reserve,
          t.before.registry.assertSellable (t.before.callEnv predecessor deposit reserve) b.key
            sub.tlaId = .ok sub.owner := by
  obtain ⟨tr, hrun, hkeeps⟩ := Sample.exists_run_meets Chain.KeepsSellable
    (Sample.bought ++ [.deliver 4 true]) (by decide +kernel) (by decide +kernel)
  exact ⟨tr, _, hrun, sold_sellable_of_run hrun hkeeps⟩

end HosTla
