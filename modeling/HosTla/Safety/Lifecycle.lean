-- SUMMARY: An entry that is reclaimable stays so until it is removed, whatever users do.
import HosTla.Safety.Reclaims

/-!
# Reclaimable entries

An entry becomes reclaimable by its own grace, by that of its TLA, or by an elapsed
retraction notice. Each cause is guarded in another method. Together the guards leave
no way back, except for the suspension of a TLA and for a new fee config.
-/

namespace HosTla

open Foundation

/-- The entry of the key is reclaimable under its own TLA. -/
def TlaRegistry.Reclaimable (r : TlaRegistry) (now : ℕ) (key : Str) : Prop :=
  ∃ sub ∈ r.subAccounts.get key, ∃ tla ∈ r.tlas.get sub.tlaId,
    effectiveSubLifecycle sub tla r.feeConfig.retractionNoticeNs now = .reclaimable

instance (r : TlaRegistry) (now : ℕ) (key : Str) : Decidable (r.Reclaimable now key) :=
  inferInstanceAs (Decidable (∃ sub ∈ r.subAccounts.get key, ∃ tla ∈ r.tlas.get sub.tlaId,
    effectiveSubLifecycle sub tla r.feeConfig.retractionNoticeNs now = .reclaimable))

/-- The step is not one of the two calls by which an admin may end a reclaimable state. -/
def Label.KeepsTerms : Label → Prop
  | .call _ _ _ (.suspendTla _) | .call _ _ _ (.updateFeeConfig _) => False
  | _ => True

instance (l : Label) : Decidable l.KeepsTerms := by
  delta Label.KeepsTerms
  rcases l with ⟨_, _, _, op⟩ | _
  · rcases op with _ | _ <;> infer_instance
  all_goals infer_instance

namespace Chain

variable {c c' : Chain} {l : Label} {key : Str}

/-- A step removes a reclaimable entry or leaves it reclaimable. -/
theorem reclaimable_step (h : c.registry.Reclaimable c.now key)
    (hstep : c.step l = some c') (hkeeps : l.KeepsTerms) :
    c'.registry.subAccounts.get key = none ∨ c'.registry.Reclaimable c'.now key := by
  obtain ⟨sub, hsub, tla, htla, hlife⟩ := h
  have hmay : c.registry.MayDelete c.now key := by
    intro sub₁ hsub₁
    cases hsub.symm.trans hsub₁
    exact ⟨tla, htla, hlife⟩
  have hmay' : c'.registry.MayDelete c'.now key := by
    refine mayDelete_of_move (move_of_step hstep) ?_ hmay
    rintro predecessor deposit reserve op o rfl hcall
    cases op with
    | suspendTla | updateFeeConfig => exact hkeeps.elim
    -- The key is taken, so no call that is accepted rents it.
    | rentSubAccount tlaId name =>
      rintro (hkey : subAccountKey tlaId name = key)
      cases (accepted_of_callOutcome hcall).2 with
      | rentSubAccount _ _ hfree =>
        rw [hkey, hsub] at hfree
        cases hfree
      | configured hop => cases hop
      | resale hop => cases hop
    | _ => trivial
  cases hsub' : c'.registry.subAccounts.get key with
  | none => exact .inl rfl
  | some sub' => exact .inr ⟨sub', hsub', hmay' sub' hsub'⟩

end Chain

/-- Along every run from any state, with any calls but the two that change its terms, a
reclaimable entry stays reclaimable until it is removed. -/
theorem reclaimable_until_removed {c c' : Chain} {key : Str} {tr : List (Transition Chain Label)}
    (h : c.registry.Reclaimable c.now key) (hrun : Run Chain.step c tr c')
    (hkeeps : ∀ t ∈ tr, t.label.KeepsTerms) :
    (∃ t ∈ tr, t.after.registry.subAccounts.get key = none) ∨
      c'.registry.Reclaimable c'.now key := by
  induction hrun with
  | nil => exact .inr h
  | @snoc tr s s' l hrun hstep ih =>
    rcases ih fun t ht => hkeeps t (List.mem_append_left _ ht) with ⟨t, ht, hremoved⟩ | hstill
    · exact .inl ⟨t, List.mem_append_left _ ht, hremoved⟩
    have hl : l.KeepsTerms := hkeeps ⟨s, l, s'⟩ (List.mem_append_right _ (List.mem_singleton_self _))
    rcases Chain.reclaimable_step hstill hstep hl with hremoved | hafter
    · exact .inl ⟨⟨s, l, s'⟩, List.mem_append_right _ (List.mem_singleton_self _), hremoved⟩
    · exact .inr hafter

/-- Alice tries to renew `n.hos` after its grace, and the entry stays reclaimable. -/
theorem reclaimable_until_removed_renewal :
    ∃ tr c, tr.map Transition.label =
        [Sample.call Sample.alice (100 * oneNear) (.renewSubAccount Sample.tla Sample.name)] ∧
      Run Chain.step (Sample.after Sample.lapsed (by decide +kernel)) tr c ∧
      ((∃ t ∈ tr, t.after.registry.subAccounts.get Sample.sub.chars = none) ∨
        c.registry.Reclaimable c.now Sample.sub.chars) := by
  have hexec : (exec Chain.step (Sample.after Sample.lapsed (by decide +kernel))
      [Sample.call Sample.alice (100 * oneNear) (.renewSubAccount Sample.tla Sample.name)]).isSome
        = true := by decide +kernel
  obtain ⟨tr, hrun, hlabels⟩ := Run.of_exec (Option.some_get hexec).symm
  refine ⟨tr, _, hlabels, hrun, reclaimable_until_removed (by decide +kernel) hrun ?_⟩
  intro t ht
  have hlabel := List.mem_map_of_mem (f := Transition.label) ht
  rw [hlabels, List.mem_singleton] at hlabel
  rw [hlabel]
  trivial

end HosTla
