-- SUMMARY: The abstract model of custody: who holds each key, who named which mother, and how often a mother is in use.
import HosTla.AccountId
import HosTla.Foundation.Saturating
import Mathlib.Logic.Function.Basic

/-!
# Custody

Custody forgets fees, times and sales. A key has a holder or none. A user has
a mother or none. An account has a use count. What the registry does to the
three is one of six events.
-/

namespace HosTla

open Foundation

structure Holder where
  owner : AccountId
  tlaId : AccountId
deriving DecidableEq

@[ext]
structure Custody where
  holder : Str → Option Holder
  mother : AccountId → Option AccountId
  uses : AccountId → ℕ

inductive CustodyEvent
  | keep
  | rent (user tlaId : AccountId) (name : Str)
  | release (key : Str)
  | sell (key : Str) (buyer : AccountId)
  | designate (user newMother : AccountId)
  | clear (user : AccountId)
deriving DecidableEq

namespace Custody

def managed (s : Custody) (a : AccountId) : Prop := (s.holder a.chars).isSome

instance (s : Custody) (a : AccountId) : Decidable (s.managed a) :=
  inferInstanceAs (Decidable ((s.holder a.chars).isSome = true))

def use (s : Custody) (a : AccountId) : Custody :=
  { s with uses := Function.update s.uses a (satAdd u32Max (s.uses a) 1) }

def unuse (s : Custody) (a : AccountId) : Custody :=
  { s with uses := Function.update s.uses a (s.uses a - 1) }

def setMother (s : Custody) (user : AccountId) (m : Option AccountId) : Custody :=
  { s with mother := Function.update s.mother user m }

def setHolder (s : Custody) (key : Str) (h : Option Holder) : Custody :=
  { s with holder := Function.update s.holder key h }

/-- A renter without a mother becomes its own. -/
def ensureMother (s : Custody) (user : AccountId) : Custody :=
  if (s.mother user).isSome then s
  else if s.managed user then (s.setMother user (some user)).use user
  else s.setMother user (some user)

/-- Leaving a mother always takes a use away. Only a managed mother gets one. -/
def designate (s : Custody) (user m : AccountId) : Custody :=
  if s.mother user = some m then s
  else
    let left := (s.mother user).elim s s.unuse
    if s.managed m then (left.setMother user (some m)).use m else left.setMother user (some m)

def apply (s : Custody) : CustodyEvent → Custody
  | .keep => s
  | .rent user tlaId name =>
    (s.ensureMother user).setHolder (subAccountKey tlaId name) (some ⟨user, tlaId⟩)
  | .release key => s.setHolder key none
  | .sell key buyer => s.setHolder key ((s.holder key).map fun h => { h with owner := buyer })
  | .designate user m => s.designate user m
  | .clear user => (s.mother user).elim s fun m => (s.setMother user none).unuse m

/-- What the registry checks before the event. -/
def Allowed (s : Custody) : CustodyEvent → Prop
  | .rent _ tlaId name =>
    s.holder (subAccountKey tlaId name) = none ∧ nameInvalidReason name = none
  | .designate user m => ∀ h, s.holder m.chars = some h → h.owner = user
  | .clear user => s.mother user ≠ none
  | _ => True

/-! ## Reading the updates -/

variable (s : Custody)

@[simp] theorem holder_use (a : AccountId) : (s.use a).holder = s.holder := rfl
@[simp] theorem mother_use (a : AccountId) : (s.use a).mother = s.mother := rfl
@[simp] theorem holder_unuse (a : AccountId) : (s.unuse a).holder = s.holder := rfl
@[simp] theorem mother_unuse (a : AccountId) : (s.unuse a).mother = s.mother := rfl
@[simp] theorem holder_setMother (a : AccountId) (m : Option AccountId) :
    (s.setMother a m).holder = s.holder := rfl
@[simp] theorem uses_setMother (a : AccountId) (m : Option AccountId) :
    (s.setMother a m).uses = s.uses := rfl
@[simp] theorem mother_setHolder (key : Str) (h : Option Holder) :
    (s.setHolder key h).mother = s.mother := rfl
@[simp] theorem uses_setHolder (key : Str) (h : Option Holder) :
    (s.setHolder key h).uses = s.uses := rfl

theorem mother_setMother (user a : AccountId) (m : Option AccountId) :
    (s.setMother user m).mother a = if a = user then m else s.mother a := by
  simp [setMother, Function.update_apply]

theorem holder_setHolder (key k : Str) (h : Option Holder) :
    (s.setHolder key h).holder k = if k = key then h else s.holder k := by
  simp [setHolder, Function.update_apply]

theorem uses_use (m a : AccountId) :
    (s.use m).uses a = if a = m then satAdd u32Max (s.uses m) 1 else s.uses a := by
  simp [use, Function.update_apply]

theorem uses_unuse (m a : AccountId) :
    (s.unuse m).uses a = if a = m then s.uses m - 1 else s.uses a := by
  simp [unuse, Function.update_apply]

theorem satAdd_one_pos (n : ℕ) : 0 < satAdd u32Max n 1 := by
  unfold satAdd u32Max
  omega

theorem uses_use_pos (m : AccountId) : 0 < (s.use m).uses m := by
  rw [uses_use, if_pos rfl]
  exact satAdd_one_pos _

@[simp] theorem holder_ensureMother (user : AccountId) :
    (s.ensureMother user).holder = s.holder := by
  unfold ensureMother; split
  · rfl
  · split <;> rfl

theorem mother_ensureMother (user a : AccountId) :
    (s.ensureMother user).mother a =
      if a = user then some ((s.mother user).getD user) else s.mother a := by
  unfold ensureMother
  -- A user that has a mother keeps it.
  by_cases ha : a = user
  · subst ha
    cases hm : s.mother a with
    | none => by_cases hmanaged : s.managed a <;> simp [hmanaged, mother_setMother]
    | some m => simp [hm]
  · cases hm : s.mother user with
    | none => by_cases hmanaged : s.managed user <;> simp [hmanaged, mother_setMother, ha]
    | some m => simp [ha]

@[simp] theorem holder_designate (user m : AccountId) :
    (s.designate user m).holder = s.holder := by
  unfold designate
  cases s.mother user <;> (repeat' split) <;> rfl

theorem mother_designate (user m a : AccountId) :
    (s.designate user m).mother a = if a = user then some m else s.mother a := by
  unfold designate
  split
  · rename_i h
    split
    · subst a; exact h
    · rfl
  · cases s.mother user <;> by_cases hmanaged : s.managed m <;>
      simp [hmanaged, mother_setMother]

/-- An event that neither rents nor releases keeps the TLA of every holder. -/
theorem tlaId_apply {s : Custody} {e : CustodyEvent} {key : Str}
    (hrent : ∀ user tlaId name, e ≠ .rent user tlaId name) (hrelease : ∀ k, e ≠ .release k) :
    ((s.apply e).holder key).map Holder.tlaId = (s.holder key).map Holder.tlaId := by
  cases e with
  | keep => rfl
  | rent => exact absurd rfl (hrent _ _ _)
  | release => exact absurd rfl (hrelease _)
  | sell k buyer =>
    simp only [apply, holder_setHolder]
    split
    · subst k; rw [Option.map_map]; rfl
    · rfl
  | designate user m => rw [apply, holder_designate]
  | clear user =>
    simp only [apply]
    cases s.mother user <;> rfl

/-- Only a release takes the holder of a key away. -/
theorem holder_apply_ne_none {s : Custody} {e : CustodyEvent} {key : Str}
    (h : s.holder key ≠ none) (hrelease : e ≠ .release key) : (s.apply e).holder key ≠ none := by
  cases e with
  | keep => exact h
  | rent user tlaId name =>
    simp only [apply, holder_setHolder, holder_ensureMother]
    split
    · exact Option.some_ne_none _
    · exact h
  | release k =>
    simp only [apply, holder_setHolder]
    split
    · subst k; exact absurd rfl hrelease
    · exact h
  | sell k buyer =>
    simp only [apply, holder_setHolder]
    split
    · subst k; exact Option.map_eq_none_iff.not.mpr h
    · exact h
  | designate user m => rwa [apply, holder_designate]
  | clear user =>
    simp only [apply]
    cases s.mother user <;> exact h

/-! ## Accounts out of use -/

/-- The event adds no use of the account. -/
def AddsNoUse (s : Custody) (a : AccountId) : CustodyEvent → Prop
  | .rent user _ _ => user = a → s.managed a → (s.mother user).isSome
  | .designate user m => m = a → s.managed a → s.mother user = some m
  | _ => True

variable {s} {a : AccountId}

theorem uses_unuse_eq_zero (h : s.uses a = 0) (m : AccountId) : (s.unuse m).uses a = 0 := by
  rw [uses_unuse]
  split
  · subst a; rw [h]
  · exact h

theorem uses_ensureMother_eq_zero (h : s.uses a = 0) {user : AccountId}
    (hadds : user = a → s.managed a → (s.mother user).isSome) :
    (s.ensureMother user).uses a = 0 := by
  unfold ensureMother
  split
  · exact h
  · rename_i hnone
    split
    · rename_i hmanaged
      rw [uses_use, if_neg]
      · exact h
      · rintro rfl
        exact hnone (hadds rfl hmanaged)
    · exact h

theorem uses_designate_eq_zero (h : s.uses a = 0) {user m : AccountId}
    (hadds : m = a → s.managed a → s.mother user = some m) :
    (s.designate user m).uses a = 0 := by
  have hleft : ((s.mother user).elim s s.unuse).uses a = 0 := by
    cases s.mother user with
    | none => exact h
    | some old => exact uses_unuse_eq_zero h old
  unfold designate
  split
  · exact h
  · rename_i hother
    dsimp only
    split
    · rename_i hmanaged
      rw [uses_use, if_neg]
      · exact hleft
      · rintro rfl
        exact hother (hadds rfl hmanaged)
    · exact hleft

/-- An account that is not in use stays out of use. -/
theorem uses_apply_eq_zero (h : s.uses a = 0) {e : CustodyEvent} (hadds : s.AddsNoUse a e) :
    (s.apply e).uses a = 0 := by
  cases e with
  | keep | release | sell => exact h
  | rent user tlaId name => exact uses_ensureMother_eq_zero h hadds
  | designate user m => exact uses_designate_eq_zero h hadds
  | clear user =>
    simp only [apply]
    cases s.mother user with
    | none => exact h
    | some m => exact uses_unuse_eq_zero (s := s.setMother user none) h m

end Custody

end HosTla
