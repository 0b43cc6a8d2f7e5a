-- SUMMARY: The published lifecycle of a sub-account is the enforced one exactly when no cause beyond its own expiry counts.
import HosTla.Registry.Views
import HosTla.Safety.Recovery

/-!
# The published lifecycle

`get_sub_account` reports what the expiry of the entry says. A reclaim also counts the
grace of the TLA and an elapsed retraction notice.
-/

namespace HosTla

open Foundation

/-- The expiry lies as far back as the grace is long. -/
def PastGrace (expiresAt now : ℕ) : Prop :=
  expiresAt ≤ now ∧ satAdd u64Max expiresAt gracePeriodNs ≤ now

/-- A cause to reclaim the entry that its own expiry does not show. -/
def SubAccountEntry.Overridden (sub : SubAccountEntry) (tla : TlaEntry) (notice now : ℕ) : Prop :=
  (tla.status = .active ∧ PastGrace tla.expiresAt now) ∨
    ∃ t, sub.retractionAt = some t ∧ satAdd u64Max t notice ≤ now

section

variable {sub : SubAccountEntry} {tla : TlaEntry} {notice now : ℕ}

theorem effective_of_overridden (h : sub.Overridden tla notice now) :
    effectiveSubLifecycle sub tla notice now = .reclaimable := by
  rw [effectiveSubLifecycle_eq_reclaimable, TlaEntry.lifecycle_eq_reclaimable]
  exact h.imp_right .inl

/-- Without a further cause the enforced lifecycle is that of the expiry. -/
theorem effective_of_not_overridden (h : ¬ sub.Overridden tla notice now) :
    effectiveSubLifecycle sub tla notice now = sub.lifecycle now := by
  obtain ⟨htla, hnotice⟩ := not_or.mp h
  unfold effectiveSubLifecycle
  rw [if_neg fun hlife => htla (TlaEntry.lifecycle_eq_reclaimable.mp hlife)]
  split
  · rename_i t ht
    exact if_neg fun helapsed => hnotice ⟨t, ht, helapsed⟩
  · rfl

theorem SubAccountEntry.lifecycle_eq_reclaimable :
    sub.lifecycle now = .reclaimable ↔ PastGrace sub.expiresAt now :=
  expiryLifecycle_eq_reclaimable

end

/-- For an entry looked up under its own TLA, the view reports the enforced lifecycle
exactly when no further cause counts or the entry is past its own grace. The same holds of
the agreement of what it reports with the check of `reclaim_finalize`. -/
theorem publishes_enforced_iff {r : TlaRegistry} {env : Env} {name : Str} {sub : SubAccountEntry}
    {tla : TlaEntry} (hsub : r.subAccounts.get (subAccountKey sub.tlaId name) = some sub)
    (htla : r.tlas.get sub.tlaId = some tla) :
    ∃ view, r.getSubAccount env.blockTimestamp sub.tlaId name = .ok (some view) ∧
      (view.lifecycle =
          effectiveSubLifecycle sub tla r.feeConfig.retractionNoticeNs env.blockTimestamp ↔
        (sub.Overridden tla r.feeConfig.retractionNoticeNs env.blockTimestamp →
          PastGrace sub.expiresAt env.blockTimestamp)) ∧
      ((view.lifecycle = .reclaimable ↔
          ∃ d, r.reclaimDestination env sub.tlaId (subAccountKey sub.tlaId name) = .ok d) ↔
        (sub.Overridden tla r.feeConfig.retractionNoticeNs env.blockTimestamp →
          PastGrace sub.expiresAt env.blockTimestamp)) := by
  have hview : r.getSubAccount env.blockTimestamp sub.tlaId name = .ok (some (toSubView
      (subAccountKey sub.tlaId name) sub tla sub.tlaId name r.feeConfig env.blockTimestamp)) := by
    simp [TlaRegistry.getSubAccount, hsub, htla]
  have hcheck : (∃ d, r.reclaimDestination env sub.tlaId (subAccountKey sub.tlaId name) = .ok d) ↔
      effectiveSubLifecycle sub tla r.feeConfig.retractionNoticeNs env.blockTimestamp =
        .reclaimable := by
    simp [TlaRegistry.reclaimDestination_eq_ok, hsub, htla]
  refine ⟨_, hview, ?_⟩
  rw [hcheck]
  show (sub.lifecycle env.blockTimestamp = _ ↔ _) ∧
    ((sub.lifecycle env.blockTimestamp = .reclaimable ↔ _) ↔ _)
  by_cases hover : sub.Overridden tla r.feeConfig.retractionNoticeNs env.blockTimestamp
  · rw [effective_of_overridden hover, SubAccountEntry.lifecycle_eq_reclaimable]
    simp only [hover, true_implies, iff_true, and_self]
  · rw [effective_of_not_overridden hover]
    simp only [hover, false_implies, and_self]

namespace Sample

/-- Alice rents `n.hos` on the last day of the TLA, and the TLA goes past its grace. -/
def outlived : List Label :=
  opening ++ [.tick (oneYearNs - 1), rent alice, .deliver 2 true, .deliver 2 true,
    .deliver 2 true, .tick (oneYearNs + gracePeriodNs)]

def outlivedTla : TlaEntry where
  tlaType := .open_
  status := .active
  licensee := none
  premiumCategory := .standard
  activatedAt := 0
  expiresAt := oneYearNs

def outlivedSub : SubAccountEntry where
  owner := alice
  tlaId := tla
  mainWallet := alice
  rentedAt := oneYearNs - 1
  expiresAt := 2 * oneYearNs - 1
  retractionAt := none

end Sample

/-- The view says that the account is active, and a reclaim of it passes the check. -/
theorem published_active_while_reclaimable :
    ∃ (c : Chain) (sub : SubAccountEntry) (tla : TlaEntry) (view : SubAccountView),
      c.Reached Sample.genesis ∧
      c.registry.subAccounts.get (subAccountKey sub.tlaId Sample.name) = some sub ∧
      c.registry.tlas.get sub.tlaId = some tla ∧
      c.registry.getSubAccount c.now sub.tlaId Sample.name = .ok (some view) ∧
      view.lifecycle = .active ∧
      effectiveSubLifecycle sub tla c.registry.feeConfig.retractionNoticeNs c.now =
        .reclaimable ∧
      ∃ d, c.registry.reclaimDestination (c.callEnv Sample.bob 0 0) sub.tlaId
        (subAccountKey sub.tlaId Sample.name) = .ok d := by
  refine ⟨Sample.after Sample.outlived (by decide +kernel), Sample.outlivedSub, Sample.outlivedTla,
    _, Sample.reached _ _, by decide +kernel, by decide +kernel, rfl, by decide +kernel,
    by decide +kernel, Sample.alice, by decide +kernel⟩

/-- Up to the end of the notice the view agrees, and from then on it does not. -/
theorem publishes_enforced_iff_retracting :
    (∃ view, Sample.retracting.getSubAccount (Sample.elapsed - 1) Sample.tla Sample.name =
        .ok (some view) ∧
      view.lifecycle = effectiveSubLifecycle Sample.retractingSub Sample.retractingTla
        defaultFeeConfig.retractionNoticeNs (Sample.elapsed - 1)) ∧
    ∃ view, Sample.retracting.getSubAccount Sample.elapsed Sample.tla Sample.name =
        .ok (some view) ∧
      view.lifecycle ≠ effectiveSubLifecycle Sample.retractingSub Sample.retractingTla
        defaultFeeConfig.retractionNoticeNs Sample.elapsed := by
  have hsub : Sample.retracting.subAccounts.get (subAccountKey Sample.retractingSub.tlaId
      Sample.name) = some Sample.retractingSub := LookupMap.get_insert_self _ _ _
  have htla : Sample.retracting.tlas.get Sample.retractingSub.tlaId = some Sample.retractingTla :=
    LookupMap.get_insert_self _ _ _
  obtain ⟨view, hview, hagrees, -⟩ :=
    @publishes_enforced_iff _ (Sample.aliceAt (Sample.elapsed - 1)) _ _ _ hsub htla
  obtain ⟨view', hview', hagrees', -⟩ :=
    @publishes_enforced_iff _ (Sample.aliceAt Sample.elapsed) _ _ _ hsub htla
  refine ⟨⟨view, hview, hagrees.mpr ?_⟩, view', hview', fun h => ?_⟩
  · rintro (⟨-, hexpired, -⟩ | ⟨t, ht, helapsed⟩)
    · exact absurd hexpired (by decide)
    · cases ht
      exact absurd helapsed (by decide)
  · exact absurd (hagrees'.mp h (.inr ⟨5, rfl, by decide⟩)).1 (by decide)

end HosTla
