-- SUMMARY: Runs of an executable step function: invariants, guarded runs, and properties that hold exactly under a guard.
import Mathlib.Tactic.Common

/-!
# Runs

A step function takes a state and a label to the next state, or refuses the
label. A run records the transitions it made, so that a condition on the steps
of a run can be stated on the record.
-/

namespace Foundation

variable {σ ι : Type}

structure Transition (σ ι : Type) where
  before : σ
  label : ι
  after : σ

/-- `Run step s₀ tr s`: from `s₀` the transitions `tr` lead to `s`. -/
inductive Run (step : σ → ι → Option σ) (s₀ : σ) : List (Transition σ ι) → σ → Prop
  | nil : Run step s₀ [] s₀
  | snoc {tr : List (Transition σ ι)} {s s' : σ} {l : ι} :
      Run step s₀ tr s → step s l = some s' → Run step s₀ (tr ++ [⟨s, l, s'⟩]) s'

def Reachable (step : σ → ι → Option σ) (s₀ s : σ) : Prop := ∃ tr, Run step s₀ tr s

/-- A condition on every step of a recorded run. -/
def Meets (G : σ → ι → Prop) (tr : List (Transition σ ι)) : Prop :=
  ∀ t ∈ tr, G t.before t.label

@[simp] theorem meets_nil (G : σ → ι → Prop) : Meets G [] := by simp [Meets]

/-- A condition on some step of a recorded run. -/
def Occurs (G : σ → ι → Prop) (tr : List (Transition σ ι)) : Prop :=
  ∃ t ∈ tr, G t.before t.label

theorem Occurs.append {G : σ → ι → Prop} {tr : List (Transition σ ι)} (h : Occurs G tr)
    (tr' : List (Transition σ ι)) : Occurs G (tr ++ tr') := by
  obtain ⟨t, ht, hG⟩ := h
  exact ⟨t, List.mem_append_left _ ht, hG⟩

theorem Occurs.imp {G G' : σ → ι → Prop} (himp : ∀ s l, G s l → G' s l)
    {tr : List (Transition σ ι)} (h : Occurs G tr) : Occurs G' tr := by
  obtain ⟨t, ht, hG⟩ := h
  exact ⟨t, ht, himp _ _ hG⟩

theorem Occurs.last {G : σ → ι → Prop} {tr : List (Transition σ ι)} {s s' : σ} {l : ι}
    (h : G s l) : Occurs G (tr ++ [⟨s, l, s'⟩]) :=
  ⟨_, List.mem_append_right _ List.mem_cons_self, h⟩

@[simp] theorem meets_snoc {G : σ → ι → Prop} {tr : List (Transition σ ι)}
    {t : Transition σ ι} : Meets G (tr ++ [t]) ↔ Meets G tr ∧ G t.before t.label := by
  simp [Meets, or_imp, forall_and]

variable {step : σ → ι → Option σ} {s₀ : σ}

theorem Reachable.refl : Reachable step s₀ s₀ := ⟨[], .nil⟩

theorem Reachable.snoc {s s' : σ} {l : ι} (h : Reachable step s₀ s)
    (hstep : step s l = some s') : Reachable step s₀ s' := by
  obtain ⟨tr, hrun⟩ := h
  exact ⟨_, hrun.snoc hstep⟩

/-- A run that goes on from a reachable state. -/
theorem Reachable.run {s s' : σ} {tr : List (Transition σ ι)} (h : Reachable step s₀ s)
    (hrun : Run step s tr s') : Reachable step s₀ s' := by
  induction hrun with
  | nil => exact h
  | snoc _ hstep ih => exact ih.snoc hstep

theorem Run.append {s s' : σ} {tr tr' : List (Transition σ ι)} (hrun : Run step s₀ tr s)
    (hrun' : Run step s tr' s') : Run step s₀ (tr ++ tr') s' := by
  induction hrun' with
  | nil => rwa [List.append_nil]
  | snoc _ hstep ih =>
    rw [← List.append_assoc]
    exact ih.snoc hstep

/-- What holds initially and is kept by every step that meets `G` holds at the
end of every run whose steps all meet `G`. -/
theorem Run.guarded {I : σ → Prop} {G : σ → ι → Prop} (hinit : I s₀)
    (hkeep : ∀ s l s', Reachable step s₀ s → I s → G s l → step s l = some s' → I s')
    {tr : List (Transition σ ι)} {s : σ} (hrun : Run step s₀ tr s) (hG : Meets G tr) : I s := by
  induction hrun with
  | nil => exact hinit
  | snoc hrun hstep ih =>
    rw [meets_snoc] at hG
    exact hkeep _ _ _ ⟨_, hrun⟩ (ih hG.1) hG.2 hstep

/-- What holds initially and is kept by every step holds of every reachable state. -/
theorem Reachable.invariant {I : σ → Prop} (hinit : I s₀)
    (hkeep : ∀ s l s', I s → step s l = some s' → I s') {s : σ}
    (h : Reachable step s₀ s) : I s := by
  obtain ⟨tr, hrun⟩ := h
  exact hrun.guarded (G := fun _ _ => True) hinit
    (fun s l s' _ hI _ hstep => hkeep s l s' hI hstep) (fun _ _ => trivial)

/-- A recorded transition is a step from the end of the run before it. -/
theorem Run.split {tr : List (Transition σ ι)} {s : σ} (hrun : Run step s₀ tr s)
    {tr₁ tr₂ : List (Transition σ ι)} {t : Transition σ ι} (htr : tr = tr₁ ++ t :: tr₂) :
    Run step s₀ tr₁ t.before ∧ step t.before t.label = some t.after := by
  induction hrun generalizing tr₂ with
  | nil => cases tr₁ <;> cases htr
  | @snoc tr s s' l hrun hstep ih =>
    -- The transition is the last one, or it lies in the run before.
    rcases List.eq_nil_or_concat tr₂ with rfl | ⟨tr₃, u, rfl⟩
    · obtain ⟨rfl, hsingle⟩ := List.append_inj' htr rfl
      cases hsingle
      exact ⟨hrun, hstep⟩
    · rw [List.concat_eq_append, ← List.cons_append, ← List.append_assoc] at htr
      exact ih (List.append_inj' htr rfl).1

/-- The run up to a recorded transition made recorded transitions only. -/
theorem Run.of_mem {tr : List (Transition σ ι)} {s : σ} (hrun : Run step s₀ tr s)
    {t : Transition σ ι} (ht : t ∈ tr) :
    ∃ tr', Run step s₀ tr' t.before ∧ (∀ u ∈ tr', u ∈ tr) ∧
      step t.before t.label = some t.after := by
  obtain ⟨tr₁, tr₂, rfl⟩ := List.append_of_mem ht
  obtain ⟨hrun₁, hstep⟩ := hrun.split rfl
  exact ⟨tr₁, hrun₁, fun u hu => List.mem_append_left _ hu, hstep⟩

/-- The run up to a transition of a guarded run is guarded. -/
theorem Run.meets_of_mem {G : σ → ι → Prop} {tr : List (Transition σ ι)} {s : σ}
    (hrun : Run step s₀ tr s) (hG : Meets G tr) {t : Transition σ ι} (ht : t ∈ tr) :
    ∃ tr', Run step s₀ tr' t.before ∧ Meets G tr' ∧ step t.before t.label = some t.after := by
  obtain ⟨tr', hrun', hmem, hstep⟩ := hrun.of_mem ht
  exact ⟨tr', hrun', fun u hu => hG u (hmem u hu), hstep⟩

/-- The run after a recorded transition. -/
theorem Run.drop {tr : List (Transition σ ι)} {s : σ} (hrun : Run step s₀ tr s)
    {tr₁ tr₂ : List (Transition σ ι)} {t : Transition σ ι} (htr : tr = tr₁ ++ t :: tr₂) :
    Run step t.after tr₂ s := by
  induction hrun generalizing tr₂ with
  | nil => cases tr₁ <;> cases htr
  | @snoc tr s s' l hrun hstep ih =>
    rcases List.eq_nil_or_concat tr₂ with rfl | ⟨tr₃, u, rfl⟩
    · obtain ⟨rfl, hsingle⟩ := List.append_inj' htr rfl
      cases hsingle
      exact .nil
    · rw [List.concat_eq_append, ← List.cons_append, ← List.append_assoc] at htr
      obtain ⟨htr', hlast⟩ := List.append_inj' htr rfl
      cases hlast
      rw [List.concat_eq_append]
      exact (ih htr').snoc hstep

/-- What a transition brings about, and every later step keeps, holds at the end. -/
theorem Run.lasting {P : σ → Prop} {tr : List (Transition σ ι)} {s : σ} (hrun : Run step s₀ tr s)
    (hkeep : ∀ u ∈ tr, step u.before u.label = some u.after → P u.before → P u.after)
    {tr₁ tr₂ : List (Transition σ ι)} {t : Transition σ ι} (htr : tr = tr₁ ++ t :: tr₂)
    (ht : P t.after) : P s := by
  have hrest := hrun.drop htr
  have hmem : ∀ u ∈ tr₂, u ∈ tr := fun u hu => by
    rw [htr]
    exact List.mem_append_right _ (List.mem_cons_of_mem _ hu)
  clear htr hrun
  induction hrest with
  | nil => exact ht
  | snoc _ hstep ih =>
    have hbefore := ih fun u hu => hmem u (List.mem_append_left _ hu)
    exact hkeep _ (hmem _ (List.mem_append_right _ (List.mem_singleton_self _))) hstep hbefore

/-- What holds at the end of a run and not at its start came about in one of its steps. -/
theorem Run.arose {P : σ → Prop} {tr : List (Transition σ ι)} {s : σ} (hrun : Run step s₀ tr s)
    (hstart : ¬ P s₀) (hend : P s) : ∃ t ∈ tr, ¬ P t.before ∧ P t.after := by
  induction hrun with
  | nil => exact absurd hend hstart
  | @snoc tr s s' l hrun hstep ih =>
    by_cases hs : P s
    · obtain ⟨t, ht, harose⟩ := ih hs
      exact ⟨t, List.mem_append_left _ ht, harose⟩
    · exact ⟨_, List.mem_append_right _ (List.mem_singleton_self _), hs, hend⟩

/-- If a run with `P` keeps `P` through one more step exactly when the step meets `G`, then
`P` holds all along a run exactly when every step meets `G`. -/
theorem Run.exact_trace {P : List (Transition σ ι) → σ → Prop} {G : σ → ι → Prop}
    (hinit : P [] s₀)
    (hstep : ∀ tr s l s', Run step s₀ tr s → P tr s → step s l = some s' →
      (P (tr ++ [⟨s, l, s'⟩]) s' ↔ G s l))
    {tr : List (Transition σ ι)} {s : σ} (hrun : Run step s₀ tr s) :
    (∀ tr₁ t tr₂, tr = tr₁ ++ t :: tr₂ → P (tr₁ ++ [t]) t.after) ↔ Meets G tr := by
  -- The induction also carries `P` to the end of the run, where the next step starts.
  have key : ((∀ tr₁ t tr₂, tr = tr₁ ++ t :: tr₂ → P (tr₁ ++ [t]) t.after) ↔ Meets G tr) ∧
      ((∀ tr₁ t tr₂, tr = tr₁ ++ t :: tr₂ → P (tr₁ ++ [t]) t.after) → P tr s) := by
    induction hrun with
    | nil => exact ⟨by simp, fun _ => hinit⟩
    | @snoc tr s s' l hrun hs ih =>
      have hlast : (∀ tr₁ t tr₂, tr ++ [⟨s, l, s'⟩] = tr₁ ++ t :: tr₂ → P (tr₁ ++ [t]) t.after) ↔
          (∀ tr₁ t tr₂, tr = tr₁ ++ t :: tr₂ → P (tr₁ ++ [t]) t.after) ∧
            P (tr ++ [⟨s, l, s'⟩]) s' := by
        constructor
        · intro h
          refine ⟨fun tr₁ t tr₂ htr => h tr₁ t (tr₂ ++ [⟨s, l, s'⟩]) ?_, h tr _ [] rfl⟩
          rw [htr, List.append_assoc, List.cons_append]
        · rintro ⟨h, hlast⟩ tr₁ t tr₂ htr
          -- The step in question is the last one, or it lies in the run before.
          rcases List.eq_nil_or_concat tr₂ with rfl | ⟨tr₃, u, rfl⟩
          · obtain ⟨rfl, hsingle⟩ := List.append_inj' htr rfl
            cases hsingle
            exact hlast
          · rw [List.concat_eq_append, ← List.cons_append, ← List.append_assoc] at htr
            exact h tr₁ t tr₃ (List.append_inj' htr rfl).1
      refine ⟨?_, fun h => (hlast.mp h).2⟩
      rw [hlast, meets_snoc]
      constructor
      · rintro ⟨htr, hs'⟩
        exact ⟨ih.1.mp htr, (hstep tr s l s' hrun (ih.2 htr) hs).mp hs'⟩
      · rintro ⟨htr, hG⟩
        have hall := ih.1.mpr htr
        exact ⟨hall, (hstep tr s l s' hrun (ih.2 hall) hs).mpr hG⟩
  exact key.1

/-- The same for a property of the states. -/
theorem Run.exact {P : σ → Prop} {G : σ → ι → Prop} (hinit : P s₀)
    (hstep : ∀ s l s', Reachable step s₀ s → P s → step s l = some s' → (P s' ↔ G s l))
    {tr : List (Transition σ ι)} {s : σ} (hrun : Run step s₀ tr s) :
    (∀ t ∈ tr, P t.after) ↔ Meets G tr := by
  have htrace := hrun.exact_trace (P := fun _ s => P s) (G := G) hinit
    fun tr s l s' hrun => hstep s l s' ⟨tr, hrun⟩
  rw [← htrace]
  constructor
  · rintro h tr₁ t tr₂ rfl
    exact h t (by simp)
  · intro h t ht
    obtain ⟨tr₁, tr₂, htr⟩ := List.append_of_mem ht
    exact h tr₁ t tr₂ htr

/-- A function that maps the steps of one system to steps of another maps its runs. -/
theorem Run.map {τ : Type} {step' : τ → ι → Option τ} {f : σ → τ}
    (hf : ∀ s l s', step s l = some s' → step' (f s) l = some (f s'))
    {tr : List (Transition σ ι)} {s : σ} (hrun : Run step s₀ tr s) :
    Run step' (f s₀) (tr.map fun t => ⟨f t.before, t.label, f t.after⟩) (f s) := by
  induction hrun with
  | nil => exact .nil
  | snoc hrun hstep ih =>
    rw [List.map_append]
    exact ih.snoc (hf _ _ _ hstep)

theorem Reachable.map {τ : Type} {step' : τ → ι → Option τ} {f : σ → τ}
    (hf : ∀ s l s', step s l = some s' → step' (f s) l = some (f s')) {s : σ}
    (h : Reachable step s₀ s) : Reachable step' (f s₀) (f s) := by
  obtain ⟨tr, hrun⟩ := h
  exact ⟨_, hrun.map hf⟩

/-! ## Executing a list of labels -/

def exec (step : σ → ι → Option σ) (s : σ) : List ι → Option σ
  | [] => some s
  | l :: ls => (step s l).bind fun s' => exec step s' ls

theorem Reachable.exec {s s' : σ} {ls : List ι} (h : Reachable step s₀ s)
    (he : Foundation.exec step s ls = some s') : Reachable step s₀ s' := by
  induction ls generalizing s with
  | nil => cases he; exact h
  | cons l ls ih =>
    rw [Foundation.exec, Option.bind_eq_some_iff] at he
    obtain ⟨s₁, hs, he⟩ := he
    exact ih (h.snoc hs) he

theorem reachable_of_exec {s : σ} {ls : List ι} (he : exec step s₀ ls = some s) :
    Reachable step s₀ s := Reachable.refl.exec he

/-- The run behind an execution. -/
theorem Run.of_exec {s : σ} {ls : List ι} (he : exec step s₀ ls = some s) :
    ∃ tr, Run step s₀ tr s ∧ tr.map Transition.label = ls := by
  -- Labels are consumed from the front and the record grows at its end.
  have key : ∀ (ls : List ι) (tr : List (Transition σ ι)) (s₁ : σ), Run step s₀ tr s₁ →
      exec step s₁ ls = some s →
        ∃ tr', Run step s₀ (tr ++ tr') s ∧ tr'.map Transition.label = ls := by
    intro ls
    induction ls with
    | nil =>
      intro tr s₁ hrun he
      cases he
      exact ⟨[], by rwa [List.append_nil], rfl⟩
    | cons l ls ih =>
      intro tr s₁ hrun he
      rw [exec, Option.bind_eq_some_iff] at he
      obtain ⟨s₂, hs, he⟩ := he
      obtain ⟨tr', hrun', hlabels⟩ := ih _ _ (hrun.snoc hs) he
      rw [List.append_assoc] at hrun'
      exact ⟨_, hrun', by simp [hlabels]⟩
  obtain ⟨tr, hrun, hlabels⟩ := key ls [] s₀ .nil he
  exact ⟨tr, by simpa using hrun, hlabels⟩

theorem exec_snoc (s : σ) (ls : List ι) (l : ι) :
    exec step s (ls ++ [l]) = (exec step s ls).bind fun s' => step s' l := by
  induction ls generalizing s with
  | nil => simp [exec]
  | cons l' ls ih =>
    simp only [List.cons_append, exec, Option.bind_assoc]
    exact congrArg _ (funext fun s' => ih s')

theorem Run.exec {tr : List (Transition σ ι)} {s : σ} (hrun : Run step s₀ tr s) :
    Foundation.exec step s₀ (tr.map Transition.label) = some s := by
  induction hrun with
  | nil => rfl
  | snoc _ hstep ih =>
    rw [List.map_append, List.map_singleton, exec_snoc, ih]
    exact hstep

/-- The labels can be executed, and every step meets `G`. -/
def checks (step : σ → ι → Option σ) (G : σ → ι → Prop) [∀ s l, Decidable (G s l)] (s : σ) :
    List ι → Bool
  | [] => true
  | l :: ls => decide (G s l) && (step s l).elim false fun s' => checks step G s' ls

variable {G : σ → ι → Prop} [∀ s l, Decidable (G s l)]

theorem checks_snoc {s s' : σ} {ls : List ι} {l : ι} (he : exec step s ls = some s')
    (h : checks step G s (ls ++ [l]) = true) : checks step G s ls = true ∧ G s' l := by
  induction ls generalizing s with
  | nil =>
    cases he
    simp only [List.nil_append, checks, Bool.and_eq_true, decide_eq_true_eq] at h
    exact ⟨rfl, h.1⟩
  | cons l' ls ih =>
    rw [exec, Option.bind_eq_some_iff] at he
    obtain ⟨s₁, hs, he⟩ := he
    simp only [List.cons_append, checks, hs, Option.elim_some, Bool.and_eq_true] at h ⊢
    exact ⟨⟨h.1, (ih he h.2).1⟩, (ih he h.2).2⟩

/-- A run along labels that were checked meets `G`. -/
theorem Run.meets_of_checks {tr : List (Transition σ ι)} {s : σ} (hrun : Run step s₀ tr s)
    (h : checks step G s₀ (tr.map Transition.label) = true) : Meets G tr := by
  induction hrun with
  | nil => exact meets_nil G
  | snoc hrun _ ih =>
    rw [List.map_append, List.map_singleton] at h
    obtain ⟨hls, hG⟩ := checks_snoc hrun.exec h
    exact meets_snoc.mpr ⟨ih hls, hG⟩

end Foundation
