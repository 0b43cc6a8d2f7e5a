-- SUMMARY: The abstract model of the market: tenancies, the records they are offered under, and the sales in flight.
import Mathlib.Logic.Function.Basic
import Mathlib.Tactic.Common

/-!
# The market

A lot is what the market knows of one key: its tenancy, its listing and the offer on
it that was accepted. Unlike the registry, a lot remembers which tenancy placed a
record. The market has a lot for each key, and it remembers which tenancy a sale in
flight is about.
-/

namespace HosTla

/-! ## Lots -/

/-- A listing or an accepted offer. -/
structure LotRecord (τ : Type) where
  placedBy : Option τ
  settling : Bool

@[ext]
structure Lot (τ : Type) where
  tenancy : Option τ
  listing : Option (LotRecord τ)
  offer : Option (LotRecord τ)

inductive LotEvent (τ : Type)
  | rent (t : τ)
  /-- The tenancy ends and the records stay. -/
  | release
  | purge
  | list
  | unlist
  | acceptOffer
  | revokeOffer
  /-- A sale takes off, under the accepted offer or under the listing. -/
  | lock (offered : Bool)
  | unlock
  | sell (transfer : τ → τ)

/-- The events that belong to a sale in flight. -/
def LotEvent.ofSale {τ : Type} : LotEvent τ → Bool
  | .lock _ | .unlock | .sell _ => true
  | _ => false

namespace Lot

variable {τ : Type}

def setSettling (settling : Bool) (x : LotRecord τ) : LotRecord τ := { x with settling }

def apply (s : Lot τ) : LotEvent τ → Lot τ
  | .rent t => { s with tenancy := some t }
  | .release => { s with tenancy := none }
  | .purge => ⟨none, none, none⟩
  | .list => { s with listing := some ⟨s.tenancy, false⟩ }
  | .unlist => { s with listing := none }
  | .acceptOffer => { s with offer := some ⟨s.tenancy, false⟩ }
  | .revokeOffer => { s with offer := none }
  | .lock true => { s with offer := s.offer.map (setSettling true) }
  | .lock false => { s with listing := s.listing.map (setSettling true) }
  | .unlock => { s with
      listing := s.listing.map (setSettling false)
      offer := s.offer.map (setSettling false) }
  | .sell transfer => ⟨s.tenancy.map transfer, none, none⟩

def HasRecord (s : Lot τ) (x : LotRecord τ) : Prop := s.listing = some x ∨ s.offer = some x

/-- A record of the lot is locked by a sale. -/
def Settling (s : Lot τ) : Prop := ∃ x, s.HasRecord x ∧ x.settling = true

/-- What the registry checks before the event: only a tenant whose lot is not locked
works on its records, and a sale needs one too. -/
def Allowed (s : Lot τ) : LotEvent τ → Prop
  | .rent _ => s.tenancy = none
  | .list | .unlist | .acceptOffer | .revokeOffer => s.tenancy ≠ none ∧ ¬ s.Settling
  | .lock offered =>
    (s.tenancy ≠ none ∧ ¬ s.Settling) ∧ (if offered then s.offer else s.listing) ≠ none
  | .sell _ => s.tenancy ≠ none
  | _ => True

/-- Every record was placed by the tenancy there is. -/
def Owned (s : Lot τ) : Prop := ∀ x, s.HasRecord x → s.tenancy ≠ none ∧ x.placedBy = s.tenancy

/-- A tenancy may end without a purge only if it has no records. -/
def KeepsOwned (s : Lot τ) : LotEvent τ → Prop
  | .release => ∀ x, ¬ s.HasRecord x
  | _ => True

variable {s : Lot τ}

theorem Owned.no_record (h : s.Owned) (hfree : s.tenancy = none) (x : LotRecord τ) :
    ¬ s.HasRecord x := fun hx => (h x hx).1 hfree

/-- Records may go, change their lock, or be placed by the tenancy there is. -/
theorem Owned.of_records (h : s.Owned) {s' : Lot τ} (htenancy : s'.tenancy = s.tenancy)
    (hrecord : ∀ x, s'.HasRecord x → (∃ y, s.HasRecord y ∧ y.placedBy = x.placedBy) ∨
      s.tenancy ≠ none ∧ x.placedBy = s.tenancy) : s'.Owned := by
  intro x hx
  rw [htenancy]
  rcases hrecord x hx with ⟨y, hy, hplaced⟩ | hnew
  · rw [← hplaced]
    exact h y hy
  · exact hnew

theorem map_setSettling {m : Option (LotRecord τ)} {b : Bool} {x : LotRecord τ}
    (h : m.map (setSettling b) = some x) : ∃ y, m = some y ∧ y.placedBy = x.placedBy := by
  obtain ⟨y, hy, rfl⟩ := Option.map_eq_some_iff.mp h
  exact ⟨y, hy, rfl⟩

/-- Among the events the registry allows, one breaks the ownership of records exactly
if it ends a tenancy and leaves a record behind. -/
theorem owned_apply_iff {e : LotEvent τ} (h : s.Owned) (hallowed : s.Allowed e) :
    (s.apply e).Owned ↔ s.KeepsOwned e := by
  cases e with
  | rent t =>
    refine iff_of_true ?_ trivial
    intro x hx
    exact absurd hx (h.no_record hallowed x)
  | release =>
    constructor
    · intro hafter x hx
      exact (hafter x hx).1 rfl
    · intro hnone x hx
      exact absurd hx (hnone x)
  | purge | sell =>
    refine iff_of_true ?_ trivial
    rintro x (hx | hx) <;> cases hx
  | list =>
    refine iff_of_true (h.of_records rfl ?_) trivial
    rintro x (hx | hx)
    · cases hx
      exact .inr ⟨hallowed.1, rfl⟩
    · exact .inl ⟨x, .inr hx, rfl⟩
  | acceptOffer =>
    refine iff_of_true (h.of_records rfl ?_) trivial
    rintro x (hx | hx)
    · exact .inl ⟨x, .inl hx, rfl⟩
    · cases hx
      exact .inr ⟨hallowed.1, rfl⟩
  | unlist =>
    refine iff_of_true (h.of_records rfl ?_) trivial
    rintro x (hx | hx)
    · cases hx
    · exact .inl ⟨x, .inr hx, rfl⟩
  | revokeOffer =>
    refine iff_of_true (h.of_records rfl ?_) trivial
    rintro x (hx | hx)
    · exact .inl ⟨x, .inl hx, rfl⟩
    · cases hx
  | lock offered =>
    cases offered with
    | true =>
      refine iff_of_true (h.of_records rfl ?_) trivial
      rintro x (hx | hx)
      · exact .inl ⟨x, .inl hx, rfl⟩
      · obtain ⟨y, hy, hplaced⟩ := map_setSettling hx
        exact .inl ⟨y, .inr hy, hplaced⟩
    | false =>
      refine iff_of_true (h.of_records rfl ?_) trivial
      rintro x (hx | hx)
      · obtain ⟨y, hy, hplaced⟩ := map_setSettling hx
        exact .inl ⟨y, .inl hy, hplaced⟩
      · exact .inl ⟨x, .inr hx, rfl⟩
  | unlock =>
    refine iff_of_true (h.of_records rfl ?_) trivial
    rintro x (hx | hx)
    · obtain ⟨y, hy, hplaced⟩ := map_setSettling hx
      exact .inl ⟨y, .inl hy, hplaced⟩
    · obtain ⟨y, hy, hplaced⟩ := map_setSettling hx
      exact .inl ⟨y, .inr hy, hplaced⟩

theorem settling_lock {offered : Bool} (h : (if offered then s.offer else s.listing) ≠ none) :
    (s.apply (.lock offered)).Settling := by
  obtain ⟨x, hx⟩ := Option.ne_none_iff_exists'.mp h
  cases offered with
  | true =>
    have hoffer : s.offer = some x := hx
    exact ⟨setSettling true x, .inr (congrArg (Option.map (setSettling true)) hoffer), rfl⟩
  | false =>
    have hlisting : s.listing = some x := hx
    exact ⟨setSettling true x, .inl (congrArg (Option.map (setSettling true)) hlisting), rfl⟩

theorem not_settling_unlock : ¬ (s.apply .unlock).Settling := by
  rintro ⟨x, hx | hx, hsettling⟩
  · obtain ⟨y, -, rfl⟩ := Option.map_eq_some_iff.mp hx
    cases hsettling
  · obtain ⟨y, -, rfl⟩ := Option.map_eq_some_iff.mp hx
    cases hsettling

theorem not_settling_sell {transfer : τ → τ} : ¬ (s.apply (.sell transfer)).Settling := by
  rintro ⟨x, hx | hx, -⟩ <;> cases hx

/-- Only a sale that takes off locks a record. -/
theorem settling_of_apply {e : LotEvent τ} (hsale : e.ofSale = false)
    (h : (s.apply e).Settling) : s.Settling := by
  obtain ⟨x, hx, hsettling⟩ := h
  cases e with
  | rent | release => exact ⟨x, hx, hsettling⟩
  | purge => rcases hx with hx | hx <;> cases hx
  | list =>
    rcases hx with hx | hx
    · cases hx; cases hsettling
    · exact ⟨x, .inr hx, hsettling⟩
  | unlist =>
    rcases hx with hx | hx
    · cases hx
    · exact ⟨x, .inr hx, hsettling⟩
  | acceptOffer =>
    rcases hx with hx | hx
    · exact ⟨x, .inl hx, hsettling⟩
    · cases hx; cases hsettling
  | revokeOffer =>
    rcases hx with hx | hx
    · exact ⟨x, .inl hx, hsettling⟩
    · cases hx
  | lock | unlock | sell => cases hsale

end Lot

/-! ## The market -/

@[ext]
structure Market (κ τ : Type) where
  lot : κ → Lot τ
  /-- The key of a sale in flight, and the tenancy when it took off. -/
  sales : ℕ → Option (κ × Option τ)

inductive MarketEvent (κ τ : Type)
  | keep
  | work (key : κ) (e : LotEvent τ)
  | openSale (id : ℕ) (key : κ) (offered : Bool)
  /-- A sale ends, with a transfer of the tenancy or without. -/
  | closeSale (id : ℕ) (key : κ) (transfer : Option (τ → τ))

namespace Market

variable {κ τ : Type} [DecidableEq κ]

def setLot (s : Market κ τ) (key : κ) (e : LotEvent τ) : κ → Lot τ :=
  Function.update s.lot key ((s.lot key).apply e)

def apply (s : Market κ τ) : MarketEvent κ τ → Market κ τ
  | .keep => s
  | .work key e => { s with lot := s.setLot key e }
  | .openSale id key offered =>
    { lot := s.setLot key (.lock offered)
      sales := Function.update s.sales id (some (key, (s.lot key).tenancy)) }
  | .closeSale id key transfer =>
    { lot := s.setLot key (transfer.elim .unlock .sell)
      sales := Function.update s.sales id none }

def Allowed (s : Market κ τ) : MarketEvent κ τ → Prop
  | .keep => True
  | .work key e => (s.lot key).Allowed e ∧ e.ofSale = false
  | .openSale id key offered => (s.lot key).Allowed (.lock offered) ∧ s.sales id = none
  | .closeSale id key transfer =>
    (s.lot key).Allowed (transfer.elim .unlock .sell) ∧ ∃ t, s.sales id = some (key, t)

variable {s : Market κ τ}

/-! ## Records of the current tenancy -/

def Owned (s : Market κ τ) : Prop := ∀ key, (s.lot key).Owned

def KeepsOwned (s : Market κ τ) : MarketEvent κ τ → Prop
  | .work key e => (s.lot key).KeepsOwned e
  | _ => True

theorem owned_setLot_iff {key : κ} {e : LotEvent τ} (h : s.Owned)
    (hallowed : (s.lot key).Allowed e) :
    (∀ k, (s.setLot key e k).Owned) ↔ (s.lot key).KeepsOwned e := by
  rw [← Lot.owned_apply_iff (h key) hallowed]
  constructor
  · intro hall
    have hkey := hall key
    rwa [setLot, Function.update_self] at hkey
  · intro hkey k
    by_cases hk : k = key
    · subst hk
      rwa [setLot, Function.update_self]
    · rw [setLot, Function.update_of_ne hk]
      exact h k

theorem owned_apply_iff {e : MarketEvent κ τ} (h : s.Owned) (hallowed : s.Allowed e) :
    (s.apply e).Owned ↔ s.KeepsOwned e := by
  cases e with
  | keep => exact iff_of_true h trivial
  | work key e => exact owned_setLot_iff h hallowed.1
  | openSale id key offered => exact owned_setLot_iff h hallowed.1
  | closeSale id key transfer =>
    refine (owned_setLot_iff h hallowed.1).trans (iff_of_true ?_ trivial)
    cases transfer <;> exact trivial

/-! ## Locks belong to sales -/

/-- A lot is locked only while a sale of it is in flight. -/
def Unwedged (s : Market κ τ) : Prop :=
  ∀ key, (s.lot key).Settling → ∃ i t, s.sales i = some (key, t)

theorem Unwedged.work (h : s.Unwedged) {key : κ} {e : LotEvent τ} (hsale : e.ofSale = false) :
    (s.apply (.work key e)).Unwedged := by
  intro k hsettling
  simp only [apply, setLot] at hsettling ⊢
  by_cases hk : k = key
  · subst hk
    rw [Function.update_self] at hsettling
    exact h k (Lot.settling_of_apply hsale hsettling)
  · rw [Function.update_of_ne hk] at hsettling
    exact h k hsettling

theorem Unwedged.openSale (h : s.Unwedged) {id : ℕ} {key : κ} {offered : Bool}
    (hid : s.sales id = none) : (s.apply (.openSale id key offered)).Unwedged := by
  intro k hsettling
  simp only [apply, setLot] at hsettling ⊢
  by_cases hk : k = key
  · subst hk
    exact ⟨id, _, Function.update_self _ _ _⟩
  · rw [Function.update_of_ne hk] at hsettling
    obtain ⟨i, t, hi⟩ := h k hsettling
    refine ⟨i, t, ?_⟩
    rwa [Function.update_of_ne]
    rintro rfl
    rw [hid] at hi
    cases hi

theorem Unwedged.closeSale (h : s.Unwedged) {id : ℕ} {key : κ} {t : Option τ}
    {transfer : Option (τ → τ)} (hid : s.sales id = some (key, t)) :
    (s.apply (.closeSale id key transfer)).Unwedged := by
  intro k hsettling
  simp only [apply, setLot] at hsettling ⊢
  by_cases hk : k = key
  -- The end of a sale takes the lock off, whatever sale had put it on.
  · subst hk
    rw [Function.update_self] at hsettling
    cases transfer with
    | none => exact absurd hsettling Lot.not_settling_unlock
    | some transfer => exact absurd hsettling Lot.not_settling_sell
  · rw [Function.update_of_ne hk] at hsettling
    obtain ⟨i, t', hi⟩ := h k hsettling
    refine ⟨i, t', ?_⟩
    rwa [Function.update_of_ne]
    rintro rfl
    rw [hid] at hi
    cases hi
    exact hk rfl

/-- Every event the registry allows keeps the locks with the sales. -/
theorem Unwedged.apply (h : s.Unwedged) {e : MarketEvent κ τ} (hallowed : s.Allowed e) :
    (s.apply e).Unwedged := by
  cases e with
  | keep => exact h
  | work key e => exact h.work hallowed.2
  | openSale id key offered => exact h.openSale hallowed.2
  | closeSale id key transfer =>
    obtain ⟨-, t, hid⟩ := hallowed
    exact h.closeSale hid

/-! ## Sales hold their lots -/

/-- No lot has two sales in flight, and a lot that has one is locked and still has the
tenancy that was for sale, if it has any. -/
structure Held (s : Market κ τ) : Prop where
  unique : ∀ {i j key t t'}, s.sales i = some (key, t) → s.sales j = some (key, t') → i = j
  tenancy : ∀ {i key t}, s.sales i = some (key, t) → (s.lot key).tenancy ≠ none →
    (s.lot key).tenancy = t ∧ (s.lot key).Settling

/-- A key is not rented out while a sale of it is in flight. -/
def KeepsHeld (s : Market κ τ) : MarketEvent κ τ → Prop
  | .work key (.rent _) => ∀ i t, s.sales i ≠ some (key, t)
  | _ => True

/-- A lot that no sale holds, or that has lost its tenancy, may change. -/
theorem Held.setLot (h : s.Held) {s' : Market κ τ} {key : κ} {e : LotEvent τ}
    (hlot : s'.lot = s.setLot key e)
    (hsales : ∀ {i k t}, s'.sales i = some (k, t) → s.sales i = some (k, t))
    (hkey : (∀ i t, s'.sales i ≠ some (key, t)) ∨ ((s.lot key).apply e).tenancy = none) :
    s'.Held := by
  refine ⟨fun hi hj => h.unique (hsales hi) (hsales hj), ?_⟩
  intro i k t hsale htenancy
  rw [hlot] at htenancy ⊢
  by_cases hk : k = key
  · subst hk
    -- Either no sale is left that could ask for the lot, or it has no tenancy to ask about.
    rcases hkey with hnone | hnone
    · exact absurd hsale (hnone i t)
    · rw [Market.setLot, Function.update_self] at htenancy
      exact absurd hnone htenancy
  · rw [Market.setLot, Function.update_of_ne hk] at htenancy ⊢
    exact h.tenancy (hsales hsale) htenancy

omit [DecidableEq κ] in
/-- A tenant whose lot is not locked has no sale in flight. -/
theorem Held.no_sale (h : s.Held) {key : κ}
    (hfree : (s.lot key).tenancy ≠ none ∧ ¬ (s.lot key).Settling) (i : ℕ) (t : Option τ) :
    s.sales i ≠ some (key, t) := fun hsale => hfree.2 (h.tenancy hsale hfree.1).2

theorem Held.work (h : s.Held) {key : κ} {e : LotEvent τ}
    (hallowed : s.Allowed (.work key e)) (hkeeps : s.KeepsHeld (.work key e)) :
    (s.apply (.work key e)).Held := by
  obtain ⟨hallowed, hwork⟩ := hallowed
  refine h.setLot rfl id ?_
  -- The events of a tenant need a lot that is not locked. The ends of a tenancy leave none.
  cases e with
  | rent t => exact .inl hkeeps
  | release | purge => exact .inr rfl
  | list | unlist | acceptOffer | revokeOffer => exact .inl (h.no_sale hallowed)
  | lock | unlock | sell => cases hwork

theorem Held.openSale (h : s.Held) {id : ℕ} {key : κ} {offered : Bool}
    (hallowed : s.Allowed (.openSale id key offered)) :
    (s.apply (.openSale id key offered)).Held := by
  obtain ⟨⟨hfree, hrecord⟩, hid⟩ := hallowed
  -- The lot was free, so the new sale is its only one.
  have hnone := h.no_sale hfree
  have hold : ∀ {i k t}, i ≠ id → (s.apply (.openSale id key offered)).sales i = some (k, t) →
      s.sales i = some (k, t) := by
    intro i k t hi hsale
    simp only [apply] at hsale
    rwa [Function.update_of_ne hi] at hsale
  have hnew : ∀ {k t}, (s.apply (.openSale id key offered)).sales id = some (k, t) →
      k = key ∧ t = (s.lot key).tenancy := by
    intro k t hsale
    simp only [apply] at hsale
    rw [Function.update_self] at hsale
    cases hsale
    exact ⟨rfl, rfl⟩
  constructor
  · intro i j k t t' hi hj
    by_cases hii : i = id
    · subst hii
      by_cases hji : j = i
      · exact hji.symm
      · obtain ⟨rfl, -⟩ := hnew hi
        exact absurd (hold hji hj) (hnone j t')
    · by_cases hji : j = id
      · subst hji
        obtain ⟨rfl, -⟩ := hnew hj
        exact absurd (hold hii hi) (hnone i t)
      · exact h.unique (hold hii hi) (hold hji hj)
  · intro i k t hsale htenancy
    by_cases hi : i = id
    · subst hi
      obtain ⟨rfl, rfl⟩ := hnew hsale
      simp only [apply, Market.setLot]
      rw [Function.update_self]
      exact ⟨by cases offered <;> rfl, Lot.settling_lock hrecord⟩
    · have hk : k ≠ key := by
        rintro rfl
        exact hnone i t (hold hi hsale)
      simp only [apply, Market.setLot] at htenancy ⊢
      rw [Function.update_of_ne hk] at htenancy ⊢
      exact h.tenancy (hold hi hsale) htenancy

theorem Held.closeSale (h : s.Held) {id : ℕ} {key : κ} {transfer : Option (τ → τ)}
    (hallowed : s.Allowed (.closeSale id key transfer)) :
    (s.apply (.closeSale id key transfer)).Held := by
  obtain ⟨-, t, hid⟩ := hallowed
  have hold : ∀ {i k t}, (s.apply (.closeSale id key transfer)).sales i = some (k, t) →
      i ≠ id ∧ s.sales i = some (k, t) := by
    intro i k t hsale
    simp only [apply] at hsale
    by_cases hi : i = id
    · subst hi
      rw [Function.update_self] at hsale
      cases hsale
    · rw [Function.update_of_ne hi] at hsale
      exact ⟨hi, hsale⟩
  refine h.setLot rfl (fun hsale => (hold hsale).2) (.inl ?_)
  intro i t' hsale
  exact (hold hsale).1 (h.unique (hold hsale).2 hid)

theorem Held.apply (h : s.Held) {e : MarketEvent κ τ} (hallowed : s.Allowed e)
    (hkeeps : s.KeepsHeld e) : (s.apply e).Held := by
  cases e with
  | keep => exact h
  | work key e => exact h.work hallowed hkeeps
  | openSale id key offered => exact h.openSale hallowed
  | closeSale id key transfer => exact h.closeSale hallowed

end Market

end HosTla
