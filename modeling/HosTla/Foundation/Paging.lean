-- SUMMARY: Reading a growing list page by page while the system that holds it goes on.
import HosTla.Foundation.Transition

/-!
# Paging

A reader asks for one page after the other, each in whatever state the system is by then,
and stops at the first page that is not full. If the list only grows at its end, the reader
has then read the list of the last state, every element once and in order.
-/

namespace Foundation

/-! ## Pages of a list -/

section

variable {α : Type} {xs ys : List α} {offset limit : ℕ}

/-- `iter().skip(offset).take(limit)` -/
def page (xs : List α) (offset limit : ℕ) : List α := (xs.drop offset).take limit

theorem page_of_short (h : (page xs offset limit).length < limit) :
    page xs offset limit = xs.drop offset := by
  refine List.take_of_length_le ?_
  unfold page at h
  rw [List.length_take] at h
  omega

theorem le_length_of_full (hlimit : 0 < limit) (h : (page xs offset limit).length = limit) :
    offset + limit ≤ xs.length := by
  unfold page at h
  rw [List.length_take, List.length_drop] at h
  omega

/-- A full page stands at the same place in every longer list. -/
theorem page_append (hlimit : 0 < limit) (h : (page xs offset limit).length = limit)
    (hgrow : xs <+: ys) : page xs offset limit ++ ys.drop (offset + limit) = ys.drop offset := by
  have hle := le_length_of_full hlimit h
  obtain ⟨new, rfl⟩ := hgrow
  have hpage : page xs offset limit = ((xs ++ new).drop offset).take limit := by
    unfold page
    rw [List.drop_append_of_le_length (by omega), List.take_append_of_le_length]
    rw [List.length_drop]
    omega
  rw [hpage, ← List.drop_drop]
  exact List.take_append_drop limit _

end

/-! ## Scans -/

variable {σ ι α β : Type} {step : σ → ι → Option σ} {read : σ → ℕ → List β} {limit : ℕ}

/-- A reader that starts at an offset in one state has read some elements by the time it
stops in another. The system may run between two pages. -/
inductive Scan (step : σ → ι → Option σ) (read : σ → ℕ → List β) (limit : ℕ) :
    σ → ℕ → List β → σ → Prop
  | last {s : σ} {offset : ℕ} (hshort : (read s offset).length < limit) :
    Scan step read limit s offset (read s offset) s
  | next {s s' s'' : σ} {offset : ℕ} {tr : List (Transition σ ι)} {rest : List β}
    (hfull : (read s offset).length = limit) (hrun : Run step s tr s')
    (hrest : Scan step read limit s' (offset + limit) rest s'') :
    Scan step read limit s offset (read s offset ++ rest) s''

namespace Scan

variable {s s' : σ} {offset : ℕ} {elems : List β}

theorem run (h : Scan step read limit s offset elems s') : ∃ tr, Run step s tr s' := by
  induction h with
  | last => exact ⟨[], .nil⟩
  | next _ hrun _ ih =>
    obtain ⟨tr, hrest⟩ := ih
    exact ⟨_, hrun.append hrest⟩

/-- Every element has been read in a state on the way. -/
theorem read_of_mem (h : Scan step read limit s offset elems s') {x : β} (hx : x ∈ elems) :
    ∃ s₁ offset₁ tr₁ tr₂, Run step s tr₁ s₁ ∧ Run step s₁ tr₂ s' ∧ x ∈ read s₁ offset₁ := by
  induction h with
  | last => exact ⟨_, _, _, _, .nil, .nil, hx⟩
  | next _ hrun hrest ih =>
    rcases List.mem_append.mp hx with hread | hlater
    · obtain ⟨tr₂, hrun₂⟩ := hrest.run
      exact ⟨_, _, _, _, .nil, hrun.append hrun₂, hread⟩
    · obtain ⟨s₁, offset₁, tr₁, tr₂, hrun₁, hrun₂, hread⟩ := ih hlater
      exact ⟨s₁, offset₁, _, _, hrun.append hrun₁, hrun₂, hread⟩

variable (keys : σ → List α) {key : β → α}

/-- The reader has the list of the last state, from its offset on. -/
theorem exact (hlimit : 0 < limit)
    (hgrow : ∀ s₁ tr s₂, Run step s₁ tr s₂ → keys s₁ <+: keys s₂)
    (h : Scan step read limit s offset elems s')
    (hread : ∀ s₁ tr₁ tr₂ offset, Run step s tr₁ s₁ → Run step s₁ tr₂ s' →
      offset ≤ (keys s₁).length → (read s₁ offset).map key = page (keys s₁) offset limit)
    (hoffset : offset ≤ (keys s).length) : elems.map key = (keys s').drop offset := by
  induction h with
  | last hshort =>
    have hpage := hread _ _ _ _ .nil .nil hoffset
    rw [hpage]
    refine page_of_short ?_
    rwa [← hpage, List.length_map]
  | @next s₁ s₂ s₃ offset _ _ hfull hrun hrest ih =>
    obtain ⟨tr, hrun'⟩ := hrest.run
    have hpage := hread s₁ _ _ offset .nil (hrun.append hrun') hoffset
    have hfull' : (page (keys s₁) offset limit).length = limit := by
      rw [← hpage, List.length_map]
      exact hfull
    have hgrows := hgrow _ _ _ hrun
    have hle := Nat.le_trans (le_length_of_full hlimit hfull') hgrows.length_le
    have hrest' := ih (fun _ _ _ _ hrun₁ => hread _ _ _ _ (hrun.append hrun₁)) hle
    rw [List.map_append, hpage, hrest']
    exact page_append hlimit hfull' (hgrows.trans (hgrow _ _ _ hrun'))

/-- A reader that nobody disturbs comes to an end. -/
theorem exists_of_read (hlimit : 0 < limit)
    (hread : ∀ offset, offset ≤ (keys s).length →
      (read s offset).map key = page (keys s) offset limit)
    (hoffset : offset ≤ (keys s).length) : ∃ elems, Scan step read limit s offset elems s := by
  -- A full page brings the reader closer to the end of the list.
  induction hrest : (keys s).length - offset using Nat.strongRecOn generalizing offset with
  | ind n ih =>
    have hpage := congrArg List.length (hread offset hoffset)
    rw [List.length_map] at hpage
    by_cases hfull : (read s offset).length = limit
    · have hle := le_length_of_full hlimit (hpage.symm.trans hfull)
      obtain ⟨elems, hscan⟩ := ih _ (by omega) hle rfl
      exact ⟨_, .next hfull .nil hscan⟩
    · have hle : (page (keys s) offset limit).length ≤ limit := List.length_take_le limit _
      exact ⟨_, .last (by omega)⟩

end Scan

end Foundation
