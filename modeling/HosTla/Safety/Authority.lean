-- SUMMARY: Whoever decides for the registry was put there by the deployer, and nothing admins decide changes without them.
import HosTla.Chain.Configuration

/-!
# Authority

`Policy` is what admins decide. A step changes it only by a call of an account that is
admin at that moment, and admins are made by admins. So everything that is decided goes
back to the account the registry was deployed with.
-/

namespace HosTla

open Foundation

/-- The methods that begin with `assert_admin`. -/
def Op.privileged : Op → Bool
  | .registerTla .. | .suspendTla _ | .unsuspendTla _ | .activateOpenTla _ => true
  | .updateFeeConfig _ | .withdraw .. | .adminClearMother _ | .exportSubAccount .. => true
  | .resaleUnlock .. | .resaleAbort _ => true
  | op => op.configures

theorem Op.privileged_of_configures {op : Op} (h : op.configures = true) :
    op.privileged = true := by
  cases op <;> first | rfl | cases h

/-- What the admins of a registry have decided. Of a TLA it holds what is fixed at its
registration. -/
structure Policy where
  paused : Bool
  version : ℕ
  admins : IterableSet AccountId
  ftAllowlist : IterableSet AccountId
  nftAllowlist : IterableSet AccountId
  caps : LookupMap AccountId UInt32
  feeConfig : FeeConfig
  tlas : LookupMap AccountId (TlaType × PremiumCategory × Option AccountId)

def TlaEntry.terms (tla : TlaEntry) : TlaType × PremiumCategory × Option AccountId :=
  (tla.tlaType, tla.premiumCategory, tla.licensee)

def TlaRegistry.policy (r : TlaRegistry) : Policy where
  paused := r.paused
  version := r.version
  admins := r.admins
  ftAllowlist := r.ftAllowlist
  nftAllowlist := r.nftAllowlist
  caps := r.businessSubCapOverride
  feeConfig := r.feeConfig
  tlas := r.tlas.mapValues TlaEntry.terms

section

variable {env : Env} {r : TlaRegistry} {op : Op} {o : Outcome}

theorem Accepted.admin (h : Accepted env r op o) (hop : op.privileged = true) :
    env.predecessor ∈ r.admins := by
  cases h with
  | configured _ hadmin | resale _ _ hadmin => exact hadmin
  | registerTla hadmin | suspendTla hadmin | unsuspendTla hadmin => exact hadmin
  | updateFeeConfig hadmin | withdraw hadmin | activateOpenTla hadmin => exact hadmin
  | adminClearMother hadmin | exportSubAccount hadmin => exact hadmin
  | _ => cases hop

theorem Accepted.policy (h : Accepted env r op o) (hop : op.privileged = false) :
    o.registry.policy = r.policy := by
  cases h with
  | configured hop' =>
    rw [Op.privileged_of_configures hop'] at hop
    cases hop
  | activateTla _ _ _ htla | renewTla _ _ htla =>
    -- The entry is written with the terms it had.
    simp only [TlaRegistry.policy]
    rw [LookupMap.mapValues_insert_of_get htla]
    simp only [TlaEntry.terms]
  | registerTla | suspendTla | unsuspendTla | updateFeeConfig | activateOpenTla => cases hop
  | _ => rfl

theorem Settled.policy {fl : Flight} (h : Settled r fl o) : o.registry.policy = r.policy := by
  cases h <;> rfl

/-- Revenue leaves the registry by withdrawals only. -/
theorem Accepted.totalRevenue_le (h : Accepted env r op o) (hop : op.privileged = false)
    (hrevenue : r.totalRevenue ≤ u128Max) : r.totalRevenue ≤ o.registry.totalRevenue := by
  cases h with
  | withdraw => cases hop
  | activateTla | renewTla | renewSubAccount =>
    exact Nat.le_min.mpr ⟨Nat.le_add_right _ _, hrevenue⟩
  | _ => exact Nat.le_refl _

theorem Settled.totalRevenue_le {fl : Flight} (h : Settled r fl o)
    (hrevenue : r.totalRevenue ≤ u128Max) : r.totalRevenue ≤ o.registry.totalRevenue := by
  cases h with
  | created | sold => exact Nat.le_min.mpr ⟨Nat.le_add_right _ _, hrevenue⟩
  | _ => exact Nat.le_refl _

/-- The admins after a configuration method were admins before, or the method added them. -/
theorem Configured.admins {r' : TlaRegistry} (h : Configured r op r') {a : AccountId}
    (ha : a ∈ r'.admins) : a ∈ r.admins ∨ op = .addAdmin a := by
  cases h with
  | addAdmin =>
    rcases IterableSet.mem_insert.mp ha with rfl | ha
    · exact .inr rfl
    · exact .inl ha
  | removeAdmin => exact .inl (IterableSet.mem_remove.mp ha).2
  | _ => exact .inl ha

end

namespace Chain

variable {c c' : Chain} {l : Label}

/-- The policy changes by a privileged call of an admin, if at all. -/
theorem policy_step (hstep : c.step l = some c') :
    c'.registry.policy = c.registry.policy ∨
      ∃ predecessor deposit reserve op, l = .call predecessor deposit reserve op ∧
        op.privileged = true ∧ predecessor ∈ c.registry.admins := by
  rcases (move_of_step hstep).registry with
    heq | ⟨predecessor, deposit, reserve, op, o, rfl, -, -, ho, heq⟩ | ⟨_, _, _, _, -, -, ho, heq⟩
  · exact .inl (congrArg TlaRegistry.policy heq)
  · cases hop : op.privileged with
    | true => exact .inr ⟨predecessor, deposit, reserve, op, rfl, hop, ho.admin hop⟩
    | false => exact .inl ((congrArg TlaRegistry.policy heq).trans (ho.policy hop))
  · exact .inl ((congrArg TlaRegistry.policy heq).trans ho.policy)

/-- An admin after a step was one before, or an admin added it. -/
theorem admins_step (hstep : c.step l = some c') {a : AccountId} (ha : a ∈ c'.registry.admins) :
    a ∈ c.registry.admins ∨ ∃ predecessor deposit reserve,
      l = .call predecessor deposit reserve (.addAdmin a) ∧ predecessor ∈ c.registry.admins := by
  rcases (move_of_step hstep).registry with
    heq | ⟨predecessor, deposit, reserve, op, o, rfl, hcall, -, ho, heq⟩ |
      ⟨_, _, _, _, -, -, ho, heq⟩
  · exact .inl (heq ▸ ha)
  · rw [heq] at ha
    cases hop : op.configures with
    | true =>
      obtain ⟨hadmin, r', rfl, hr'⟩ := configured_of_callOutcome hcall hop
      rcases hr'.admins ha with ha | rfl
      · exact .inl ha
      · exact .inr ⟨predecessor, deposit, reserve, rfl, hadmin⟩
    | false => exact .inl ((ho.lists hop).1 ▸ ha)
  · exact .inl (ho.lists.1 ▸ heq ▸ ha)

/-- A privileged call of an account that is not admin is rejected, and changes nothing. -/
theorem eq_of_unprivileged {predecessor : AccountId} {deposit reserve : ℕ} {op : Op}
    (hstep : c.step (.call predecessor deposit reserve op) = some c')
    (hop : op.privileged = true) (hnot : predecessor ∉ c.registry.admins) : c' = c := by
  cases move_of_step hstep with
  | rejected => rfl
  | accepted _ _ _ ho => exact absurd (ho.admin hop) hnot

end Chain

/-! ## Trust -/

/-- Who is trusted makes only those admin who are trusted, too. -/
def TrustedAdds (T : AccountId → Prop) (_ : Chain) (l : Label) : Prop :=
  ∀ predecessor deposit reserve a, l = .call predecessor deposit reserve (.addAdmin a) →
    T predecessor → T a

/-- Let the deployer be trusted, and let trusted accounts add only trusted ones. Then all
admins are trusted and there is one, every change of the policy is a call of a trusted
account, and privileged calls of others change nothing. -/
theorem decided_by_trusted {T : AccountId → Prop} {g : Genesis}
    {tr : List (Transition Chain Label)} {c : Chain}
    (hrun : Run Chain.step (Chain.init g) tr c) (hdeployer : T g.admin)
    (hadds : Meets (TrustedAdds T) tr) :
    (∀ a ∈ c.registry.admins, T a) ∧ (∃ a, a ∈ c.registry.admins) ∧
      ∀ t ∈ tr,
        (t.after.registry.policy ≠ t.before.registry.policy →
          ∃ predecessor deposit reserve op, t.label = .call predecessor deposit reserve op ∧
            op.privileged = true ∧ T predecessor) ∧
        ∀ predecessor deposit reserve op, t.label = .call predecessor deposit reserve op →
          op.privileged = true → ¬ T predecessor → t.after = t.before := by
  have hadmins {tr : List (Transition Chain Label)} {c : Chain}
      (hrun : Run Chain.step (Chain.init g) tr c) (hadds : Meets (TrustedAdds T) tr) :
      ∀ a ∈ c.registry.admins, T a := by
    refine hrun.guarded (I := fun c => ∀ a ∈ c.registry.admins, T a) ?_ ?_ hadds
    · intro a ha
      rcases IterableSet.mem_insert.mp ha with rfl | ha
      · exact hdeployer
      · exact absurd ha (IterableSet.not_mem_empty a)
    · intro c l c' _ htrusted hG hstep a ha
      rcases Chain.admins_step hstep ha with ha | ⟨predecessor, deposit, reserve, rfl, hadmin⟩
      · exact htrusted a ha
      · exact hG predecessor deposit reserve a rfl (htrusted predecessor hadmin)
  refine ⟨hadmins hrun hadds, ?_, ?_⟩
  · have hreached : c.Reached g := ⟨tr, hrun⟩
    obtain ⟨a, ha⟩ := List.exists_mem_of_length_pos hreached.listed.admins
    exact ⟨a, ha⟩
  · intro t ht
    obtain ⟨tr', hrun', hmeets, hstep⟩ := hrun.meets_of_mem hadds ht
    have htrusted := hadmins hrun' hmeets
    constructor
    · intro hchanged
      rcases Chain.policy_step hstep with heq | ⟨predecessor, deposit, reserve, op, hl, hop, hadmin⟩
      · exact absurd heq hchanged
      · exact ⟨predecessor, deposit, reserve, op, hl, hop, htrusted predecessor hadmin⟩
    · intro predecessor deposit reserve op hl hop hnot
      rw [hl] at hstep
      exact Chain.eq_of_unprivileged hstep hop fun hadmin => hnot (htrusted predecessor hadmin)

/-- The deployer makes Alice an admin, who pauses the registry. Bob's call to lift the pause
is refused. -/
def Sample.delegated : List Label :=
  [call admin 0 (.addAdmin alice), call alice 0 .pause, call bob 0 .unpause]

/-- Alice is trusted like the deployer. -/
theorem decided_by_trusted_delegated :
    ∃ tr c, Run Chain.step (Chain.init Sample.genesis) tr c ∧
      tr.map Transition.label = Sample.delegated ∧ Sample.alice ∈ c.registry.admins ∧
      c.registry.paused = true ∧
      (∀ a ∈ c.registry.admins, a = Sample.admin ∨ a = Sample.alice) ∧
      (∃ a, a ∈ c.registry.admins) ∧
      ∀ t ∈ tr,
        (t.after.registry.policy ≠ t.before.registry.policy →
          ∃ predecessor deposit reserve op, t.label = .call predecessor deposit reserve op ∧
            op.privileged = true ∧ (predecessor = Sample.admin ∨ predecessor = Sample.alice)) ∧
        ∀ predecessor deposit reserve op, t.label = .call predecessor deposit reserve op →
          op.privileged = true → ¬ (predecessor = Sample.admin ∨ predecessor = Sample.alice) →
            t.after = t.before := by
  obtain ⟨tr, hrun, hlabels⟩ := Sample.exists_run Sample.delegated (by decide +kernel)
  have hadds : Meets (TrustedAdds fun a => a = Sample.admin ∨ a = Sample.alice) tr := by
    intro t ht predecessor deposit reserve a hl _
    have hmem : t.label ∈ Sample.delegated := hlabels ▸ List.mem_map_of_mem ht
    rw [hl] at hmem
    obtain ⟨-, -, -, ha⟩ : predecessor = Sample.admin ∧ deposit = 0 ∧ reserve = 0 ∧
        a = Sample.alice := by
      simpa [Sample.delegated, Sample.call] using hmem
    exact .inr ha
  exact ⟨tr, _, hrun, hlabels, by decide +kernel, by decide +kernel,
    decided_by_trusted hrun (.inl rfl) hadds⟩

/-! ## Without the admins -/

/-- The admins of `c` make no privileged call. -/
def LeftAlone (c : Chain) (_ : Chain) (l : Label) : Prop :=
  ∀ predecessor deposit reserve op, l = .call predecessor deposit reserve op →
    op.privileged = true → predecessor ∉ c.registry.admins

/-- As long as the admins of a state make no privileged call, nobody else decides anything:
the policy stays as it is, and revenue is not withdrawn. -/
theorem policy_left_alone {g : Genesis} {c c' : Chain} {tr : List (Transition Chain Label)}
    (h : c.Reached g) (hrun : Run Chain.step c tr c') (halone : Meets (LeftAlone c) tr) :
    c'.registry.policy = c.registry.policy ∧
      c.registry.totalRevenue ≤ c'.registry.totalRevenue := by
  refine hrun.guarded (I := fun c' => c'.registry.policy = c.registry.policy ∧
    c.registry.totalRevenue ≤ c'.registry.totalRevenue) ⟨rfl, Nat.le_refl _⟩ ?_ halone
  rintro c₁ l c₂ hreach ⟨hpolicy, hrevenue⟩ hG hstep
  have hadmins : c₁.registry.admins = c.registry.admins := congrArg Policy.admins hpolicy
  obtain ⟨tr₁, hrun₁⟩ := hreach
  have hreached : c₁.Reached g := h.run hrun₁
  have hle := hreached.totalRevenue_le
  rcases (Chain.move_of_step hstep).registry with
    heq | ⟨predecessor, deposit, reserve, op, o, rfl, -, -, ho, heq⟩ | ⟨_, _, _, _, -, -, ho, heq⟩
  · rw [heq]
    exact ⟨hpolicy, hrevenue⟩
  · rw [heq]
    cases hop : op.privileged with
    | true =>
      have hadmin : predecessor ∈ c₁.registry.admins := ho.admin hop
      exact absurd (hadmins ▸ hadmin) (hG _ _ _ _ rfl hop)
    | false =>
      exact ⟨(ho.policy hop).trans hpolicy, Nat.le_trans hrevenue (ho.totalRevenue_le hop hle)⟩
  · rw [heq]
    exact ⟨ho.policy.trans hpolicy, Nat.le_trans hrevenue (ho.totalRevenue_le hle)⟩

theorem policy_left_alone_rent :
    ∃ c', Sample.opened.step (Sample.rent Sample.alice) = some c' ∧
      c'.registry.policy = Sample.opened.registry.policy ∧
      Sample.opened.registry.totalRevenue ≤ c'.registry.totalRevenue := by
  have hsome : (Sample.opened.step (Sample.rent Sample.alice)).isSome = true := by decide +kernel
  obtain ⟨c', hstep⟩ := Option.isSome_iff_exists.mp hsome
  refine ⟨c', hstep, policy_left_alone Sample.opened_reached
    (Run.nil.snoc hstep) ?_⟩
  intro t ht predecessor deposit reserve op hl hop
  rw [List.nil_append, List.mem_singleton] at ht
  subst ht
  cases hl
  cases hop

end HosTla
