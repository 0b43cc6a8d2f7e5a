-- SUMMARY: Saturating arithmetic on natural numbers below a bound, and the three bounds the contracts use.
import Mathlib.Algebra.Ring.Nat
import Mathlib.Order.Basic
import Mathlib.Tactic.Common

/-!
# Saturating arithmetic

Fixed-width unsigned numbers are natural numbers, and the operations of the
source that saturate take the largest value of the width as an argument.
Saturating subtraction is subtraction on `ℕ`.
-/

namespace Foundation

def u32Max : ℕ := 2 ^ 32 - 1
def u64Max : ℕ := 2 ^ 64 - 1
def u128Max : ℕ := 2 ^ 128 - 1

def satAdd (max a b : ℕ) : ℕ := min (a + b) max
def satMul (max a b : ℕ) : ℕ := min (a * b) max

theorem satAdd_le (max a b : ℕ) : satAdd max a b ≤ a + b := Nat.min_le_left _ _

theorem satAdd_eq {max a b : ℕ} (h : a + b ≤ max) : satAdd max a b = a + b := Nat.min_eq_left h

theorem satAdd_eq_iff {max a b : ℕ} : satAdd max a b = a + b ↔ a + b ≤ max := by
  unfold satAdd; omega

/-- A bound on the saturated sum is a bound on the sum, unless the sum saturates. -/
theorem add_le_of_satAdd_le {max a b c : ℕ} (h : satAdd max a b ≤ c) (hc : c < max) :
    a + b ≤ c := by
  unfold satAdd at h; omega

end Foundation
