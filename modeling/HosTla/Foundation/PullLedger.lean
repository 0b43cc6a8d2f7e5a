-- SUMMARY: Pull-payment ledgers with saturating amounts, and when their books balance account by account.
import HosTla.Foundation.LookupMap
import HosTla.Foundation.Saturating

/-!
# Pull-payment ledgers

Amounts are credited to accounts and wait there until the account claims them. A
claim takes the whole entry and pays it outside the ledger, which may fail. Then
the entry is restored. The ledger stores the entries and their total, both with
saturating addition.
-/

namespace Foundation

structure PullLedger (κ : Type) where
  pending : LookupMap κ ℕ
  total : ℕ

namespace PullLedger

variable {κ : Type}

def balanceOf (l : PullLedger κ) (a : κ) : ℕ := (l.pending.get a).getD 0

variable [DecidableEq κ]

def credit (max : ℕ) (l : PullLedger κ) (a : κ) (x : ℕ) : PullLedger κ where
  pending := l.pending.insert a (satAdd max (l.balanceOf a) x)
  total := satAdd max l.total x

def creditAll (max : ℕ) (l : PullLedger κ) : List (κ × ℕ) → PullLedger κ
  | [] => l
  | c :: cs => (l.credit max c.1 c.2).creditAll max cs

def claim (l : PullLedger κ) (a : κ) : PullLedger κ where
  pending := l.pending.remove a
  total := l.total - l.balanceOf a

@[simp] theorem creditAll_nil (max : ℕ) (l : PullLedger κ) : l.creditAll max [] = l := rfl

@[simp] theorem creditAll_cons (max : ℕ) (l : PullLedger κ) (c : κ × ℕ) (cs : List (κ × ℕ)) :
    l.creditAll max (c :: cs) = (l.credit max c.1 c.2).creditAll max cs := rfl

/-- A credit never adds more to the total than its amount. -/
theorem credit_total_le (max : ℕ) (l : PullLedger κ) (a : κ) (x : ℕ) :
    (l.credit max a x).total ≤ l.total + x := satAdd_le _ _ _

omit [DecidableEq κ] in
theorem balanceOf_eq_weight (l : PullLedger κ) (a : κ) :
    l.balanceOf a = l.pending.weight (fun _ x => x) a := by
  unfold balanceOf LookupMap.weight
  cases l.pending.get a <;> rfl

theorem balanceOf_credit {max : ℕ} {l : PullLedger κ} {a : κ} {x : ℕ}
    (h : l.balanceOf a + x ≤ max) (b : κ) :
    (l.credit max a x).balanceOf b = l.balanceOf b + if b = a then x else 0 := by
  unfold credit
  by_cases hb : b = a
  · subst hb
    simp only [balanceOf, LookupMap.get_insert_self, Option.getD_some, if_true] at h ⊢
    exact satAdd_eq h
  · simp [balanceOf, hb]

theorem balanceOf_claim (l : PullLedger κ) (a b : κ) :
    (l.claim a).balanceOf b + (if b = a then l.balanceOf a else 0) = l.balanceOf b := by
  unfold claim
  by_cases hb : b = a
  · subst hb; simp [balanceOf]
  · simp [balanceOf, hb]

/-! ## The total -/

/-- The stored total is the sum of the entries. -/
def Summed (l : PullLedger κ) : Prop := l.total = l.pending.sum fun _ x => x

omit [DecidableEq κ] in
theorem Summed.balanceOf_le {l : PullLedger κ} (h : l.Summed) (a : κ) :
    l.balanceOf a ≤ l.total := by
  rw [h, balanceOf_eq_weight]
  exact LookupMap.weight_le_sum _ _ _

theorem Summed.credit {max : ℕ} {l : PullLedger κ} {a : κ} {x : ℕ} (h : l.Summed)
    (hmax : l.total + x ≤ max) : (l.credit max a x).Summed := by
  -- The entry is at most the total, so neither of the two additions saturates.
  have hbal := h.balanceOf_le a
  have hsum := l.pending.sum_insert (fun _ x => x) a (satAdd max (l.balanceOf a) x)
  rw [← balanceOf_eq_weight, satAdd_eq (by omega)] at hsum
  unfold Summed at h ⊢
  simp only [PullLedger.credit]
  rw [satAdd_eq hmax, satAdd_eq (by omega)]
  omega

theorem Summed.creditAll {max : ℕ} {l : PullLedger κ} {cs : List (κ × ℕ)} (h : l.Summed)
    (hmax : l.total + (cs.map Prod.snd).sum ≤ max) : (l.creditAll max cs).Summed := by
  induction cs generalizing l with
  | nil => exact h
  | cons c cs ih =>
    rw [List.map_cons, List.sum_cons] at hmax
    have hle := credit_total_le max l c.1 c.2
    exact ih (h.credit (by omega)) (by omega)

theorem Summed.claim {l : PullLedger κ} (h : l.Summed) (a : κ) : (l.claim a).Summed := by
  have hsum := l.pending.sum_remove (fun _ x => x) a
  rw [← balanceOf_eq_weight] at hsum
  unfold Summed at h ⊢
  simp only [PullLedger.claim]
  omega

theorem creditAll_total_le (max : ℕ) (l : PullLedger κ) (cs : List (κ × ℕ)) :
    (l.creditAll max cs).total ≤ l.total + (cs.map Prod.snd).sum := by
  induction cs generalizing l with
  | nil => simp
  | cons c cs ih =>
    have hle := credit_total_le max l c.1 c.2
    have hrest := ih (l.credit max c.1 c.2)
    rw [creditAll_cons, List.map_cons, List.sum_cons]
    omega

/-! ## Paying out -/

/-- The accounts claim one after the other, and the funds cover each claim in turn. -/
def Pays (l : PullLedger κ) (funds : ℕ) : List κ → Prop
  | [] => True
  | a :: as =>
    l.balanceOf a ≠ 0 ∧ l.balanceOf a ≤ funds ∧ (l.claim a).Pays (funds - l.balanceOf a) as

theorem balanceOf_claim_ne (l : PullLedger κ) {a b : κ} (h : b ≠ a) :
    (l.claim a).balanceOf b = l.balanceOf b := by
  simpa [h] using l.balanceOf_claim a b

/-- Whatever the order, claims of different accounts go through if and only if the funds
cover all of them. -/
theorem pays_iff {l : PullLedger κ} {funds : ℕ} {as : List κ} (hnodup : as.Nodup)
    (hpos : ∀ a ∈ as, l.balanceOf a ≠ 0) : l.Pays funds as ↔ (as.map l.balanceOf).sum ≤ funds := by
  induction as generalizing l funds with
  | nil => simp [Pays]
  | cons a as ih =>
    obtain ⟨hfirst, hnodup⟩ := List.nodup_cons.mp hnodup
    -- The claim of the first account leaves the entries of the others alone.
    have hothers : ∀ b ∈ as, (l.claim a).balanceOf b = l.balanceOf b := fun b hb =>
      l.balanceOf_claim_ne fun hba => hfirst (hba ▸ hb)
    have hpos' : ∀ b ∈ as, (l.claim a).balanceOf b ≠ 0 := fun b hb => by
      rw [hothers b hb]
      exact hpos b (List.mem_cons_of_mem _ hb)
    have hrest : (l.claim a).Pays (funds - l.balanceOf a) as ↔
        (as.map (l.claim a).balanceOf).sum ≤ funds - l.balanceOf a := ih hnodup hpos'
    have hhead := hpos a List.mem_cons_self
    rw [List.map_congr_left hothers] at hrest
    rw [Pays, hrest, List.map_cons, List.sum_cons]
    omega

/-- The claims of all accounts that wait for something add up to the entries. -/
theorem sum_map_balanceOf {l : PullLedger κ} {as : List κ} (hnodup : as.Nodup)
    (hall : ∀ a, a ∈ as ↔ l.balanceOf a ≠ 0) :
    (as.map l.balanceOf).sum = l.pending.sum fun _ x => x := by
  have hweight : l.balanceOf = l.pending.weight fun _ x => x := funext l.balanceOf_eq_weight
  rw [LookupMap.sum_eq_sum_map hnodup fun a ha => ?_, hweight]
  rw [← balanceOf_eq_weight]
  exact not_not.mp fun hne => ha ((hall a).mpr hne)

/-! ## Books -/

/-- Amounts by account, with their total. -/
@[ext]
structure Tally (κ : Type) where
  of : κ → ℕ
  total : ℕ

def Tally.zero : Tally κ := ⟨fun _ => 0, 0⟩

def Tally.add (t : Tally κ) (a : κ) (x : ℕ) : Tally κ :=
  ⟨fun b => t.of b + if b = a then x else 0, t.total + x⟩

def Tally.addAll (t : Tally κ) : List (κ × ℕ) → Tally κ
  | [] => t
  | c :: cs => (t.add c.1 c.2).addAll cs

theorem Tally.addAll_append (t : Tally κ) (cs ds : List (κ × ℕ)) :
    t.addAll (cs ++ ds) = (t.addAll cs).addAll ds := by
  induction cs generalizing t with
  | nil => rfl
  | cons c cs ih => exact ih _

/-- What a list of amounts holds for one account. -/
def amountTo (cs : List (κ × ℕ)) (a : κ) : ℕ := (cs.map fun c => if a = c.1 then c.2 else 0).sum

theorem Tally.addAll_of (t : Tally κ) (cs : List (κ × ℕ)) (a : κ) :
    (t.addAll cs).of a = t.of a + amountTo cs a := by
  induction cs generalizing t with
  | nil => simp [Tally.addAll, amountTo]
  | cons c cs ih =>
    simp only [Tally.addAll, ih, Tally.add, amountTo, List.map_cons, List.sum_cons]
    omega

theorem Tally.addAll_total (t : Tally κ) (cs : List (κ × ℕ)) :
    (t.addAll cs).total = t.total + (cs.map Prod.snd).sum := by
  induction cs generalizing t with
  | nil => simp [Tally.addAll]
  | cons c cs ih =>
    simp only [Tally.addAll, ih, Tally.add, List.map_cons, List.sum_cons]
    omega

theorem Tally.le_addAll_total (t : Tally κ) (cs : List (κ × ℕ)) :
    t.total ≤ (t.addAll cs).total := by
  rw [addAll_total]
  exact Nat.le_add_right _ _

/-- The books of a ledger balance: every account was credited what waits for it,
what it has claimed and what it was paid. -/
structure Balanced (l : PullLedger κ) (credited claimed paid : Tally κ) : Prop where
  summed : l.Summed
  each : ∀ a, credited.of a = l.balanceOf a + claimed.of a + paid.of a
  all : credited.total = l.total + claimed.total + paid.total

variable {max : ℕ} {l : PullLedger κ} {credited claimed paid : Tally κ}

/-- A credit that the total of all credits leaves room for. -/
theorem Balanced.credit {a : κ} {x : ℕ} (h : l.Balanced credited claimed paid)
    (hmax : credited.total + x ≤ max) :
    (l.credit max a x).Balanced (credited.add a x) claimed paid := by
  have hall := h.all
  have hle := h.summed.balanceOf_le a
  refine ⟨h.summed.credit (by omega), ?_, ?_⟩
  · intro b
    have := h.each b
    rw [balanceOf_credit (by omega)]
    simp only [Tally.add]
    omega
  · simp only [Tally.add, PullLedger.credit]
    rw [satAdd_eq (by omega)]
    omega

theorem Balanced.claim (h : l.Balanced credited claimed paid) (a : κ) :
    (l.claim a).Balanced credited (claimed.add a (l.balanceOf a)) paid := by
  have hall := h.all
  have hle := h.summed.balanceOf_le a
  refine ⟨h.summed.claim a, ?_, ?_⟩
  · intro b
    have := h.each b
    have := l.balanceOf_claim a b
    simp only [Tally.add]
    omega
  · simp only [Tally.add, PullLedger.claim]
    omega

/-- A claim that is paid moves from the claims to the payments. -/
theorem Balanced.pay {a : κ} {x : ℕ} (h : l.Balanced credited (claimed.add a x) paid) :
    l.Balanced credited claimed (paid.add a x) := by
  refine ⟨h.summed, ?_, ?_⟩
  · intro b
    have := h.each b
    simp only [Tally.add] at this ⊢
    omega
  · have := h.all
    simp only [Tally.add] at this ⊢
    omega

/-- A claim whose payment failed goes back to its entry. -/
theorem Balanced.restore {a : κ} {x : ℕ} (h : l.Balanced credited (claimed.add a x) paid)
    (hmax : credited.total ≤ max) :
    (l.credit max a x).Balanced credited claimed paid := by
  have hall := h.all
  -- The amount was credited once before, so there is room for it.
  have heach := h.each a
  have hle := h.summed.balanceOf_le a
  simp only [Tally.add] at hall heach
  refine ⟨h.summed.credit (by omega), ?_, ?_⟩
  · intro b
    have := h.each b
    rw [balanceOf_credit (by omega)]
    simp only [Tally.add] at this
    omega
  · simp only [PullLedger.credit]
    rw [satAdd_eq (by omega)]
    omega

theorem Balanced.creditAll {cs : List (κ × ℕ)} (h : l.Balanced credited claimed paid)
    (hmax : (credited.addAll cs).total ≤ max) :
    (l.creditAll max cs).Balanced (credited.addAll cs) claimed paid := by
  induction cs generalizing l credited with
  | nil => exact h
  | cons c cs ih =>
    have hle := (credited.add c.1 c.2).le_addAll_total cs
    exact ih (h.credit (le_trans hle hmax)) hmax

end PullLedger

end Foundation
