-- SUMMARY: Runs that come to an end: how many moves a rank pays for, and ends that every run reaches.
import HosTla.Foundation.Transition

/-!
# Ranked runs

Some labels bring a system closer to an end. If each of them lowers a rank, and the labels
that open new work raise it by at most `k`, then the moves of a run are paid for by the work
it opened. If there is a move as long as the system is not at an end, then moves alone take
it there. Where only one kind of end can be reached, `Inevitable` says so of every order of
the moves.
-/

namespace Foundation

variable {σ ι : Type} {step : σ → ι → Option σ} {s₀ : σ}

/-- The moves of a run are paid for by its rank at the start and by the work it opened. -/
theorem Run.moves_le {moves opens : σ → ι → Bool} {rank : σ → ℕ} {k : ℕ}
    (hstep : ∀ s l s', Reachable step s₀ s → step s l = some s' →
      rank s' + (if moves s l then 1 else 0) ≤ rank s + if opens s l then k else 0)
    {tr : List (Transition σ ι)} {s : σ} (hrun : Run step s₀ tr s) :
    (tr.countP fun t => moves t.before t.label) + rank s ≤
      rank s₀ + k * tr.countP fun t => opens t.before t.label := by
  induction hrun with
  | nil => simp
  | @snoc tr s s' l hrun hs ih =>
    have hlast := hstep s l s' ⟨tr, hrun⟩ hs
    simp only [List.countP_append, List.countP_singleton]
    have hopens : k * (tr.countP (fun t => opens t.before t.label) + if opens s l then 1 else 0) =
        k * tr.countP (fun t => opens t.before t.label) + if opens s l then k else 0 := by
      rw [Nat.mul_add]
      split <;> simp
    omega

/-- Where every state that is not final has an allowed step, and allowed steps lower the
rank, allowed steps lead to a final state. -/
theorem Reachable.exists_run_final {allowed : σ → ι → Prop} {final : σ → Prop} {rank : σ → ℕ}
    (hlower : ∀ s l s', Reachable step s₀ s → allowed s l → step s l = some s' → rank s' < rank s)
    (hnext : ∀ s, Reachable step s₀ s → ¬ final s → ∃ l s', allowed s l ∧ step s l = some s')
    {s : σ} (h : Reachable step s₀ s) :
    ∃ tr s', Run step s tr s' ∧ Meets allowed tr ∧ tr.length ≤ rank s ∧ final s' := by
  -- The induction is on the rank that is left.
  induction hrank : rank s using Nat.strongRecOn generalizing s with
  | ind n ih =>
    by_cases hfinal : final s
    · exact ⟨[], s, .nil, meets_nil _, Nat.zero_le _, hfinal⟩
    · obtain ⟨l, s₁, hallowed, hs⟩ := hnext s h hfinal
      have hlt := hlower s l s₁ h hallowed hs
      obtain ⟨tr, s', hrun, hmeets, hlen, hfinal'⟩ := ih (rank s₁) (hrank ▸ hlt) (h.snoc hs) rfl
      refine ⟨[⟨s, l, s₁⟩] ++ tr, s', (Run.nil.snoc hs).append hrun, ?_, ?_, hfinal'⟩
      · intro t ht
        rcases List.mem_append.mp ht with ht | ht
        · rw [List.mem_singleton.mp ht]
          exact hallowed
        · exact hmeets t ht
      · rw [List.length_append, List.length_singleton]
        omega

/-! ## Inevitable ends -/

/-- However the allowed steps are taken, they come to an end, and there `final` holds. -/
inductive Inevitable (step : σ → ι → Option σ) (allowed : σ → ι → Prop) (final : σ → Prop) :
    σ → Prop
  | done {s : σ} (hfinal : final s) (hend : ∀ l, allowed s l → step s l = none) :
      Inevitable step allowed final s
  | later {s : σ} (hnext : ∃ l s', allowed s l ∧ step s l = some s')
      (hall : ∀ l s', allowed s l → step s l = some s' → Inevitable step allowed final s') :
      Inevitable step allowed final s

namespace Inevitable

variable {allowed : σ → ι → Prop} {final : σ → Prop} {s : σ}

theorem exists_run (h : Inevitable step allowed final s) :
    ∃ tr s', Run step s tr s' ∧ Meets allowed tr ∧ final s' := by
  induction h with
  | @done s hfinal => exact ⟨[], s, .nil, meets_nil _, hfinal⟩
  | @later s hnext _ ih =>
    obtain ⟨l, s₁, hl, hstep⟩ := hnext
    obtain ⟨tr, s', hrun, hmeets, hfinal⟩ := ih l s₁ hl hstep
    refine ⟨[⟨s, l, s₁⟩] ++ tr, s', (Run.nil.snoc hstep).append hrun, ?_, hfinal⟩
    intro t ht
    rcases List.mem_append.mp ht with ht | ht
    · rw [List.mem_singleton.mp ht]
      exact hl
    · exact hmeets t ht

end Inevitable

end Foundation
