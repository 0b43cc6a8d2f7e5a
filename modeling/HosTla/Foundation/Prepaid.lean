-- SUMMARY: Terms that are prepaid one at a time, in saturating arithmetic.
import HosTla.Foundation.Saturating

/-!
# Prepaid terms

Something runs from a start to an end. The first payment sets the end one period after the
start, and each further one moves it by one period, from the present end or from now. No
payment is lost to an early renewal, and no time is given away.
-/

namespace Foundation

/-- A start, an end, and the number of periods that were paid. -/
structure Term where
  start : ℕ
  ends : ℕ
  paid : ℕ

namespace Term

def unpaid : Term := ⟨0, 0, 0⟩

def first (bound period now : ℕ) : Term := ⟨now, satAdd bound now period, 1⟩

def renew (bound period now : ℕ) (t : Term) : Term :=
  { t with ends := satAdd bound (max now t.ends) period, paid := t.paid + 1 }

/-- The term has all the time that was paid for, and what is left of it was paid for. -/
structure Covered (t : Term) (bound period now : ℕ) : Prop where
  granted : min (t.start + t.paid * period) bound ≤ t.ends
  covered : t.ends ≤ now + t.paid * period

variable {bound period now : ℕ} {t : Term}

theorem start_renew : (t.renew bound period now).start = t.start := rfl

theorem ends_renew : (t.renew bound period now).ends = satAdd bound (max now t.ends) period := rfl

theorem covered_unpaid : unpaid.Covered bound period now :=
  ⟨by simp [unpaid], Nat.zero_le _⟩

theorem covered_first : (first bound period now).Covered bound period now := by
  unfold first satAdd
  exact ⟨by simp, by simp only; omega⟩

theorem Covered.renew (h : t.Covered bound period now) :
    (t.renew bound period now).Covered bound period now := by
  obtain ⟨hgranted, hcovered⟩ := h
  unfold Term.renew satAdd
  constructor
  · simp only [Nat.succ_mul]
    omega
  · simp only [Nat.succ_mul]
    omega

/-- A lapse of time changes nothing. -/
theorem Covered.later (h : t.Covered bound period now) {now' : ℕ} (hle : now ≤ now') :
    t.Covered bound period now' :=
  ⟨h.granted, Nat.le_trans h.covered (Nat.add_le_add_right hle _)⟩

end Term

end Foundation
