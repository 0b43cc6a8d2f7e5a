-- SUMMARY: Finite sets that keep an iteration order, with removal by swapping in the last element.
import Mathlib.Data.List.Nodup

/-!
# Iterable sets

The elements stand in iteration order without repetition. An insertion appends,
and a removal moves the last element into the free place.
-/

namespace Foundation

structure IterableSet (α : Type) where
  elems : List α
  nodup : elems.Nodup

namespace IterableSet

variable {α : Type}

def empty : IterableSet α := ⟨[], List.nodup_nil⟩

def len (s : IterableSet α) : ℕ := s.elems.length

instance : Membership α (IterableSet α) := ⟨fun s a => a ∈ s.elems⟩

theorem mem_def {s : IterableSet α} {a : α} : a ∈ s ↔ a ∈ s.elems := Iff.rfl

@[simp] theorem not_mem_empty (a : α) : a ∉ (empty : IterableSet α) := by simp [mem_def, empty]

variable [DecidableEq α]

instance (s : IterableSet α) (a : α) : Decidable (a ∈ s) :=
  inferInstanceAs (Decidable (a ∈ s.elems))

def insert (s : IterableSet α) (a : α) : IterableSet α :=
  if h : a ∈ s.elems then s
  else ⟨s.elems ++ [a], by
    rw [List.nodup_append]
    refine ⟨s.nodup, List.nodup_singleton a, ?_⟩
    intro x hx y hy
    rw [List.mem_singleton] at hy
    rintro rfl
    exact h (hy ▸ hx)⟩

/-- The list with `a` removed and its place taken by the last element. -/
def swapRemove (l : List α) (a : α) : List α :=
  match l.getLast? with
  | none => []
  | some last =>
    if a ∉ l then l
    else if a = last then l.dropLast
    else l.dropLast.map fun x => if x = a then last else x

theorem swapRemove_nodup {l : List α} (h : l.Nodup) (a : α) : (swapRemove l a).Nodup := by
  unfold swapRemove
  split
  · exact List.nodup_nil
  · rename_i last hlast
    obtain ⟨init, rfl⟩ := List.getLast?_eq_some_iff.mp hlast
    rw [List.dropLast_concat]
    have hinit : init.Nodup := (List.nodup_append.mp h).1
    -- The last element moves, so it must not stand elsewhere already.
    have hlast_notin : last ∉ init := by
      intro hmem
      exact (List.nodup_append.mp h).2.2 last hmem last (List.mem_singleton.mpr rfl) rfl
    split
    · exact h
    split
    · exact hinit
    · refine List.Nodup.map_on ?_ hinit
      intro x hx y hy hxy
      split at hxy <;> split at hxy
      · simp [*]
      · exact absurd (hxy ▸ hy) hlast_notin
      · exact absurd (hxy ▸ hx) hlast_notin
      · exact hxy

def remove (s : IterableSet α) (a : α) : IterableSet α :=
  ⟨swapRemove s.elems a, swapRemove_nodup s.nodup a⟩

@[simp] theorem mem_insert {s : IterableSet α} {a b : α} : b ∈ s.insert a ↔ b = a ∨ b ∈ s := by
  unfold insert
  split
  · rename_i h
    simp only [mem_def, iff_or_self]
    rintro rfl
    exact h
  · simp only [mem_def, List.mem_append, List.mem_singleton]
    exact or_comm

@[simp] theorem mem_remove {s : IterableSet α} {a b : α} : b ∈ s.remove a ↔ b ≠ a ∧ b ∈ s := by
  obtain ⟨l, hl⟩ := s
  simp only [mem_def, remove, swapRemove]
  split
  · rename_i hnone
    simp [List.getLast?_eq_none_iff.mp hnone]
  · rename_i last hlast
    obtain ⟨init, rfl⟩ := List.getLast?_eq_some_iff.mp hlast
    have hnotin : last ∉ init := by
      intro hmem
      exact (List.nodup_append.mp hl).2.2 last hmem last (List.mem_singleton.mpr rfl) rfl
    rw [List.dropLast_concat]
    split
    · rename_i ha
      constructor
      · intro hb
        exact ⟨fun hba => ha (hba ▸ hb), hb⟩
      · exact fun hb => hb.2
    split
    · rename_i _ heq
      subst heq
      constructor
      · intro hb
        exact ⟨fun hba => hnotin (hba ▸ hb), List.mem_append_left _ hb⟩
      · rintro ⟨hne, hb⟩
        simpa [hne] using hb
    · rename_i ha hne
      have ha' : a ∈ init := by
        have := not_not.mp ha
        simpa [hne] using this
      simp only [List.mem_map, List.mem_append, List.mem_singleton]
      constructor
      · rintro ⟨x, hx, hxb⟩
        split at hxb
        · subst hxb
          exact ⟨fun h => hne h.symm, .inr rfl⟩
        · rename_i hxa
          subst hxb
          exact ⟨hxa, .inl hx⟩
      · rintro ⟨hba, hb | rfl⟩
        · exact ⟨b, hb, by simp [hba]⟩
        · exact ⟨a, ha', by simp⟩

theorem insert_of_mem {s : IterableSet α} {a : α} (h : a ∈ s) : s.insert a = s := dif_pos h

theorem remove_of_notMem {s : IterableSet α} {a : α} (h : a ∉ s) : s.remove a = s := by
  obtain ⟨l, hl⟩ := s
  rw [mem_def] at h
  have helems : swapRemove l a = l := by
    unfold swapRemove
    split
    · rename_i hnone
      exact (List.getLast?_eq_none_iff.mp hnone).symm
    · rw [if_pos h]
  simp only [remove, helems]

theorem len_insert_of_notMem {s : IterableSet α} {a : α} (h : a ∉ s) :
    (s.insert a).len = s.len + 1 := by
  rw [mem_def] at h
  simp only [len, insert, dif_neg h, List.length_append, List.length_singleton]

/-- A removal takes one element at most. -/
theorem len_remove (s : IterableSet α) (a : α) :
    (s.remove a).len ≤ s.len ∧ s.len ≤ (s.remove a).len + 1 := by
  obtain ⟨l, hl⟩ := s
  simp only [len, remove]
  unfold swapRemove
  split
  · rename_i hnone
    rw [List.getLast?_eq_none_iff.mp hnone]
    exact ⟨Nat.le_refl _, Nat.zero_le _⟩
  split
  · exact ⟨Nat.le_refl _, Nat.le_succ _⟩
  split
  · rw [List.length_dropLast]
    omega
  · rw [List.length_map, List.length_dropLast]
    omega

end IterableSet

end Foundation
