-- SUMMARY: A TLA is active after an activation, unless it was suspended before it had one.
import HosTla.Chain.InFlight

/-!
# Activations

A suspension does not remember the status it replaces, and lifting it makes the TLA
active whatever that status was. A TLA that is suspended before its activation becomes
active without a payment and without a year to run.
-/

namespace HosTla

open Foundation

/-- The transition activates the TLA, as the entry has it on record. For the fee and the
base rent the licensee pays, what exceeds them comes back as a refund. -/
inductive Activation (tlaId : AccountId) : Transition Chain Label → TlaEntry → Prop
  | paid {c c' : Chain} {predecessor : AccountId} {deposit reserve : ℕ} {o : Outcome}
      {tla : TlaEntry}
      (hcall : c.callOutcome predecessor deposit reserve (.activateTla tlaId) = some o)
      (hpaid : c.registry.feeConfig.tlaAllocationFee +
        baseRent (byteLen tlaId.chars % 256) c.registry.feeConfig ≤ deposit)
      (hexcess : o.credits = excessCredit predecessor (deposit -
        (c.registry.feeConfig.tlaAllocationFee +
          baseRent (byteLen tlaId.chars % 256) c.registry.feeConfig)))
      (htype : tla.tlaType = .business) (hat : tla.activatedAt = c.now) :
      Activation tlaId ⟨c, .call predecessor deposit reserve (.activateTla tlaId), c'⟩ tla
  | opened {c c' : Chain} {predecessor : AccountId} {deposit reserve : ℕ} {o : Outcome}
      {tla : TlaEntry}
      (hcall : c.callOutcome predecessor deposit reserve (.activateOpenTla tlaId) = some o)
      (htype : tla.tlaType = .open_) (hat : tla.activatedAt = c.now) :
      Activation tlaId ⟨c, .call predecessor deposit reserve (.activateOpenTla tlaId), c'⟩ tla

/-- Every TLA that is no longer registered was activated, and it has its first year. -/
def Activated (tr : List (Transition Chain Label)) (c : Chain) : Prop :=
  ∀ tlaId, ∀ tla ∈ c.registry.tlas.get tlaId, tla.status ≠ .registered →
    (∃ t ∈ tr, Activation tlaId t tla) ∧ min (tla.activatedAt + oneYearNs) u64Max ≤ tla.expiresAt

/-- No TLA is suspended before its activation. -/
def Chain.KeepsActivated (c : Chain) : Label → Prop
  | .call predecessor deposit reserve (.suspendTla tlaId) =>
    (c.callOutcome predecessor deposit reserve (.suspendTla tlaId)).isSome →
      ∀ tla ∈ c.registry.tlas.get tlaId, tla.status ≠ .registered
  | _ => True

instance (c : Chain) (l : Label) : Decidable (c.KeepsActivated l) := by
  delta Chain.KeepsActivated
  rcases l with ⟨_, _, _, op⟩ | _
  · rcases op with _ | _ <;> infer_instance
  all_goals infer_instance

/-! ## What a step does to a TLA -/

/-- Where the entry of a TLA after an accepted call comes from. -/
inductive TlaSource (env : Env) (r : TlaRegistry) (tlaId : AccountId) (tla : TlaEntry) :
    Op → Prop
  | registered {op : Op} (hnew : r.tlas.get tlaId = none) (hstatus : tla.status = .registered) :
      TlaSource env r tlaId tla op
  | kept {op : Op} (htla : r.tlas.get tlaId = some tla) : TlaSource env r tlaId tla op
  /-- A renewal or the end of a suspension. -/
  | prolonged {op : Op} {tla₀ : TlaEntry} (htla : r.tlas.get tlaId = some tla₀)
      (hstatus : tla₀.status ≠ .registered) (hstatus' : tla.status ≠ .registered)
      (htype : tla.tlaType = tla₀.tlaType) (hat : tla.activatedAt = tla₀.activatedAt)
      (hexpires : min tla₀.expiresAt u64Max ≤ tla.expiresAt) :
      TlaSource env r tlaId tla op
  | suspended {tla₀ : TlaEntry} (htla : r.tlas.get tlaId = some tla₀)
      (heq : tla = { tla₀ with status := .suspended }) :
      TlaSource env r tlaId tla (.suspendTla tlaId)
  | activated {tla₀ : TlaEntry} (htla : r.tlas.get tlaId = some tla₀)
      (hregistered : tla₀.status = .registered) (heq : tla = { tla₀ with
        status := .active
        activatedAt := env.blockTimestamp
        expiresAt := satAdd u64Max env.blockTimestamp oneYearNs }) (htype : tla₀.tlaType = .business) :
      TlaSource env r tlaId tla (.activateTla tlaId)
  | opened {tla₀ : TlaEntry} (htla : r.tlas.get tlaId = some tla₀)
      (hregistered : tla₀.status = .registered) (heq : tla = { tla₀ with
        status := .active
        activatedAt := env.blockTimestamp
        expiresAt := satAdd u64Max env.blockTimestamp oneYearNs }) (htype : tla₀.tlaType = .open_) :
      TlaSource env r tlaId tla (.activateOpenTla tlaId)

theorem Accepted.tlaSource {env : Env} {r : TlaRegistry} {op : Op} {o : Outcome}
    (h : Accepted env r op o) {tlaId : AccountId} {tla : TlaEntry}
    (htla : o.registry.tlas.get tlaId = some tla) : TlaSource env r tlaId tla op := by
  cases h with
  | registerTla _ hnew =>
    rcases LookupMap.get_of_get_insert htla with ⟨rfl, rfl⟩ | ⟨-, htla⟩
    · exact .registered hnew rfl
    · exact .kept htla
  | suspendTla _ htla₀ =>
    rcases LookupMap.get_of_get_insert htla with ⟨rfl, rfl⟩ | ⟨-, htla⟩
    · exact .suspended htla₀ rfl
    · exact .kept htla
  | unsuspendTla _ htla₀ hstatus =>
    rcases LookupMap.get_of_get_insert htla with ⟨rfl, rfl⟩ | ⟨-, htla⟩
    · exact .prolonged htla₀ (by rw [hstatus]; simp) (by simp) rfl rfl (Nat.min_le_left _ _)
    · exact .kept htla
  | activateOpenTla _ htla₀ hstatus htype =>
    rcases LookupMap.get_of_get_insert htla with ⟨rfl, rfl⟩ | ⟨-, htla⟩
    · exact .opened htla₀ hstatus rfl htype
    · exact .kept htla
  | activateTla _ _ _ htla₀ hstatus htype =>
    rcases LookupMap.get_of_get_insert htla with ⟨rfl, rfl⟩ | ⟨-, htla⟩
    · exact .activated htla₀ hstatus rfl htype
    · exact .kept htla
  | @renewTla _ tla₀ _ _ _ htla₀ hstatus =>
    rcases LookupMap.get_of_get_insert htla with ⟨rfl, rfl⟩ | ⟨-, htla⟩
    · refine .prolonged htla₀ (by rw [hstatus]; simp) (by rw [hstatus]; simp) rfl rfl ?_
      -- The year is added to a time that is no earlier than the old expiry.
      have hle : tla₀.expiresAt ≤ max env.blockTimestamp tla₀.expiresAt := le_max_right _ _
      simp only [satAdd]
      omega
    · exact .kept htla
  | _ => exact .kept htla

/-- Only an accepted call writes the TLAs. -/
theorem Chain.tla_of_step {c c' : Chain} {l : Label} (hstep : c.step l = some c')
    {tlaId : AccountId} {tla : TlaEntry} (htla : c'.registry.tlas.get tlaId = some tla) :
    c.registry.tlas.get tlaId = some tla ∨
      ∃ predecessor deposit reserve op o, l = .call predecessor deposit reserve op ∧
        c.callOutcome predecessor deposit reserve op = some o ∧
        Accepted (c.callEnv predecessor deposit reserve) c.registry op o ∧
        c.nativeTotal + deposit < u128Max ∧
        TlaSource (c.callEnv predecessor deposit reserve) c.registry tlaId tla op := by
  rcases (move_of_step hstep).registry with
    heq | ⟨_, _, _, _, _, hl, hcall, hbound, ho, heq⟩ | ⟨_, _, _, _, -, -, ho, heq⟩
  · exact .inl (heq ▸ htla)
  · rw [heq] at htla
    exact .inr ⟨_, _, _, _, _, hl, hcall, ho, hbound, ho.tlaSource htla⟩
  · exact .inl ((congrArg TlaRegistry.tlas heq).trans ho.tlas ▸ htla)

/-- The payment behind an accepted `activate_tla`. -/
theorem Accepted.paid_of_activateTla {env : Env} {r : TlaRegistry} {tlaId : AccountId}
    {o : Outcome} (h : Accepted env r (.activateTla tlaId) o)
    (hbound : env.attachedDeposit < u128Max) :
    r.feeConfig.tlaAllocationFee + baseRent (byteLen tlaId.chars % 256) r.feeConfig ≤
        env.attachedDeposit ∧
      o.credits = excessCredit env.predecessor (env.attachedDeposit -
        (r.feeConfig.tlaAllocationFee + baseRent (byteLen tlaId.chars % 256) r.feeConfig)) := by
  cases h with
  | activateTla _ hrequired hpaid =>
    subst hrequired
    have hle := add_le_of_satAdd_le hpaid hbound
    refine ⟨hle, ?_⟩
    rw [satAdd_eq (Nat.le_trans hle (Nat.le_of_lt hbound))]
  | configured hop => cases hop
  | resale hop => cases hop

/-- A TLA that has left `Registered` never gets back there, and an activation takes it out. -/
theorem Accepted.not_registered {env : Env} {r : TlaRegistry} {op : Op} {o : Outcome}
    (h : Accepted env r op o) {tlaId : AccountId}
    (hleft : (op = .activateTla tlaId ∨ op = .activateOpenTla tlaId) ∨
      ∃ tla ∈ r.tlas.get tlaId, tla.status ≠ .registered) :
    ∃ tla ∈ o.registry.tlas.get tlaId, tla.status ≠ .registered := by
  -- An entry written with another status, under the id or elsewhere.
  have hwrite {k : AccountId} {tla : TlaEntry} (hstatus : tla.status ≠ .registered)
      (hleft : tlaId = k ∨ ∃ tla ∈ r.tlas.get tlaId, tla.status ≠ .registered) :
      ∃ tla' ∈ (r.tlas.insert k tla).get tlaId, tla'.status ≠ .registered := by
    by_cases hk : tlaId = k
    · subst hk
      exact ⟨tla, LookupMap.get_insert_self _ _ _, hstatus⟩
    · obtain ⟨tla₀, htla₀, hstatus₀⟩ := hleft.resolve_left hk
      exact ⟨tla₀, (LookupMap.get_insert_ne hk).trans htla₀, hstatus₀⟩
  cases h with
  | configured hop => exact hleft.resolve_left (by rintro (rfl | rfl) <;> cases hop)
  | resale hop => exact hleft.resolve_left (by rintro (rfl | rfl) <;> cases hop)
  | registerTla _ hnew =>
    obtain ⟨tla₀, htla₀, hstatus₀⟩ := hleft.resolve_left (by simp)
    refine ⟨tla₀, ?_, hstatus₀⟩
    refine (LookupMap.get_insert_ne ?_).trans htla₀
    rintro rfl
    rw [hnew] at htla₀
    cases htla₀
  | suspendTla => exact hwrite (by simp) (hleft.imp_left (by simp))
  | unsuspendTla => exact hwrite (by simp) (hleft.imp_left (by simp))
  | activateOpenTla => exact hwrite (by simp) (hleft.imp_left (by simp +contextual))
  | activateTla => exact hwrite (by simp) (hleft.imp_left (by simp +contextual))
  | renewTla _ _ _ hstatus => exact hwrite (by rw [hstatus]; simp) (hleft.imp_left (by simp))
  | _ => exact hleft.resolve_left (by simp)

/-! ## Runs -/

/-- The activation of a TLA is an accepted call. -/
theorem Activation.accepted {tlaId : AccountId} {t : Transition Chain Label} {tla : TlaEntry}
    (h : Activation tlaId t tla) :
    ∃ predecessor deposit reserve op o, t.label = .call predecessor deposit reserve op ∧
      t.before.callOutcome predecessor deposit reserve op = some o ∧
      (op = .activateTla tlaId ∨ op = .activateOpenTla tlaId) := by
  cases h with
  | paid hcall => exact ⟨_, _, _, _, _, rfl, hcall, .inl rfl⟩
  | opened hcall => exact ⟨_, _, _, _, _, rfl, hcall, .inr rfl⟩

/-- After an activation, and from then on, the TLA is not registered. -/
theorem Chain.not_registered_of_step {c c' : Chain} {l : Label} (hstep : c.step l = some c')
    {tlaId : AccountId}
    (hleft : (∃ tla, Activation tlaId ⟨c, l, c'⟩ tla) ∨
      ∃ tla ∈ c.registry.tlas.get tlaId, tla.status ≠ .registered) :
    ∃ tla ∈ c'.registry.tlas.get tlaId, tla.status ≠ .registered := by
  have hcalled : (∃ tla, Activation tlaId ⟨c, l, c'⟩ tla) → ∃ predecessor deposit reserve op o,
      l = .call predecessor deposit reserve op ∧
      c.callOutcome predecessor deposit reserve op = some o ∧
      (op = .activateTla tlaId ∨ op = .activateOpenTla tlaId) := fun ⟨_, h⟩ => h.accepted
  have hkept (hl : ∀ predecessor deposit reserve op, l ≠ .call predecessor deposit reserve op) :
      ∃ tla ∈ c.registry.tlas.get tlaId, tla.status ≠ .registered := by
    refine hleft.resolve_left fun h => ?_
    obtain ⟨_, _, _, _, _, hlabel, -⟩ := hcalled h
    exact hl _ _ _ _ hlabel
  cases move_of_step hstep with
  | accepted hcall _ _ ho =>
    refine ho.not_registered (hleft.imp_left fun h => ?_)
    obtain ⟨_, _, _, _, _, hl, -, hop⟩ := hcalled h
    cases hl
    exact hop
  | rejected hcall =>
    refine hleft.resolve_left fun h => ?_
    obtain ⟨_, _, _, _, _, hl, hcall', -⟩ := hcalled h
    cases hl
    rw [hcall] at hcall'
    cases hcall'
  | settled _ _ ho =>
    have htlas := hkept (by simp)
    rw [← ho.tlas] at htlas
    exact htlas
  | advanced _ _ _ hadvance =>
    rw [(advanced_of_advance hadvance).registry]
    exact hkept (by simp)
  | answered _ hanswer => rw [hanswer.registry]; exact hkept (by simp)
  | _ => exact hkept (by simp)

/-- A TLA that is still registered, or unknown, was never activated. -/
theorem not_activation_of_registered {g : Genesis} {tr : List (Transition Chain Label)} {c : Chain}
    (hrun : Run Chain.step (Chain.init g) tr c) {tlaId : AccountId}
    (hregistered : ∀ tla ∈ c.registry.tlas.get tlaId, tla.status = .registered) :
    ∀ t ∈ tr, ∀ tla, ¬ Activation tlaId t tla := by
  induction hrun with
  | nil => simp
  | @snoc tr s s' l hrun hstep ih =>
    have hnot : ¬ ∃ tla ∈ s'.registry.tlas.get tlaId, tla.status ≠ .registered := by
      rintro ⟨tla, htla, hstatus⟩
      exact hstatus (hregistered tla htla)
    have hbefore : ∀ tla ∈ s.registry.tlas.get tlaId, tla.status = .registered := by
      intro tla htla
      by_contra hstatus
      exact hnot (Chain.not_registered_of_step hstep (.inr ⟨tla, htla, hstatus⟩))
    intro t ht tla hact
    rcases List.mem_append.mp ht with ht | ht
    · exact ih hbefore t ht tla hact
    · cases List.mem_singleton.mp ht
      exact hnot (Chain.not_registered_of_step hstep (.inl ⟨tla, hact⟩))

namespace Activation

variable {tlaId : AccountId} {t : Transition Chain Label} {tla tla' : TlaEntry}

/-- An activation is read off the type and the date of the entry. -/
theorem congr (h : Activation tlaId t tla) (htype : tla'.tlaType = tla.tlaType)
    (hat : tla'.activatedAt = tla.activatedAt) : Activation tlaId t tla' := by
  cases h with
  | paid hcall hpaid hexcess htype₀ hat₀ =>
    exact .paid hcall hpaid hexcess (htype.trans htype₀) (hat.trans hat₀)
  | opened hcall htype₀ hat₀ => exact .opened hcall (htype.trans htype₀) (hat.trans hat₀)

end Activation

/-- One step keeps the TLAs activated exactly if it suspends none before its activation. -/
theorem activated_step_iff {g : Genesis} {tr : List (Transition Chain Label)} {c c' : Chain}
    {l : Label} (hrun : Run Chain.step (Chain.init g) tr c) (h : Activated tr c)
    (hstep : c.step l = some c') : Activated (tr ++ [⟨c, l, c'⟩]) c' ↔ c.KeepsActivated l := by
  constructor
  · intro hafter
    unfold Chain.KeepsActivated
    split
    · rename_i predecessor deposit reserve tlaId
      intro hsome tla htla hstatus
      have hregistered : ∀ tla' ∈ c.registry.tlas.get tlaId, tla'.status = .registered := by
        intro tla' htla'
        cases htla.symm.trans htla'
        exact hstatus
      -- Nothing has activated it, and the suspension does not either.
      cases Chain.move_of_step hstep with
      | rejected hcall => rw [hcall] at hsome; cases hsome
      | accepted _ _ _ ho =>
        cases ho with
        | suspendTla _ htla₀ =>
          have hget := LookupMap.get_insert_self c.registry.tlas tlaId
            { tla with status := TlaStatus.suspended }
          cases htla.symm.trans htla₀
          obtain ⟨⟨t, ht, hact⟩, -⟩ := hafter tlaId _ hget (by simp)
          rcases List.mem_append.mp ht with ht | ht
          · exact not_activation_of_registered hrun hregistered t ht _ hact
          · cases List.mem_singleton.mp ht
            cases hact
        | configured hop => cases hop
        | resale hop => cases hop
    · trivial
  · intro hkeeps tlaId tla htla hstatus
    have hkeep {t : Transition Chain Label} (ht : t ∈ tr) : t ∈ tr ++ [⟨c, l, c'⟩] :=
      List.mem_append_left _ ht
    have hlast : (⟨c, l, c'⟩ : Transition Chain Label) ∈ tr ++ [⟨c, l, c'⟩] := by simp
    rcases Chain.tla_of_step hstep htla with htla | ⟨predecessor, deposit, reserve, op, o, rfl,
      hcall, ho, hbound, hsource⟩
    · obtain ⟨⟨t, ht, hact⟩, hyear⟩ := h tlaId tla htla hstatus
      exact ⟨⟨t, hkeep ht, hact⟩, hyear⟩
    cases hsource with
    | registered _ hregistered => exact absurd hregistered hstatus
    | kept htla =>
      obtain ⟨⟨t, ht, hact⟩, hyear⟩ := h tlaId tla htla hstatus
      exact ⟨⟨t, hkeep ht, hact⟩, hyear⟩
    | prolonged htla₀ hstatus₀ _ htype hat hexpires =>
      obtain ⟨⟨t, ht, hact⟩, hyear⟩ := h tlaId _ htla₀ hstatus₀
      refine ⟨⟨t, hkeep ht, hact.congr htype hat⟩, ?_⟩
      rw [hat]
      omega
    | suspended htla₀ heq =>
      subst heq
      have hstatus₀ := hkeeps (by rw [hcall]; rfl) _ htla₀
      obtain ⟨⟨t, ht, hact⟩, hyear⟩ := h tlaId _ htla₀ hstatus₀
      exact ⟨⟨t, hkeep ht, hact.congr rfl rfl⟩, hyear⟩
    | activated _ _ heq htype =>
      subst heq
      obtain ⟨hpaid, hexcess⟩ := ho.paid_of_activateTla (show deposit < u128Max by omega)
      exact ⟨⟨_, hlast, .paid hcall hpaid hexcess htype rfl⟩, Nat.le_refl _⟩
    | opened _ _ heq htype =>
      subst heq
      exact ⟨⟨_, hlast, .opened hcall htype rfl⟩, Nat.le_refl _⟩

/-- All along a run the TLAs that are not registered were activated and have their first
year, exactly if the run suspends no TLA before its activation. -/
theorem activated_iff {g : Genesis} {tr : List (Transition Chain Label)} {c : Chain}
    (hrun : Run Chain.step (Chain.init g) tr c) :
    (∀ tr₁ t tr₂, tr = tr₁ ++ t :: tr₂ → Activated (tr₁ ++ [t]) t.after) ↔
      Meets Chain.KeepsActivated tr := by
  refine hrun.exact_trace (P := Activated) ?_ ?_
  · intro tlaId tla htla
    cases htla
  · intro tr c l c' hrun h hstep
    exact activated_step_iff hrun h hstep

/-! ## Suspended before the activation -/

namespace Sample

/-- The admin registers the TLA, suspends it, and lifts the suspension. -/
def suspendedEarly : List Label :=
  [call admin 0 (.registerTla tla .business .standard (some alice)),
    call admin 0 (.suspendTla tla), call admin 0 (.unsuspendTla tla)]

end Sample

/-- The TLA is active with no activation behind it, and it has expired already. -/
theorem active_without_activation :
    ∃ tr c tla, Run Chain.step (Chain.init Sample.genesis) tr c ∧
      c.registry.tlas.get Sample.tla = some tla ∧ tla.status = .active ∧ tla.expiresAt = 0 ∧
      ¬ Activated tr c := by
  obtain ⟨tr, hrun, -⟩ := Sample.exists_run Sample.suspendedEarly (by decide +kernel)
  let tla : TlaEntry := {
    tlaType := .business, status := .active, licensee := some Sample.alice
    premiumCategory := .standard, activatedAt := 0, expiresAt := 0 }
  have htla : (Sample.after Sample.suspendedEarly (by decide +kernel)).registry.tlas.get Sample.tla
      = some tla := by decide +kernel
  refine ⟨tr, _, tla, hrun, htla, rfl, rfl, ?_⟩
  intro hactivated
  exact absurd (hactivated Sample.tla tla htla (by simp [tla])).2 (by decide)

/-- The opening of the sample TLA suspends nothing. -/
theorem activated_iff_opening :
    ∃ tr, tr.map Transition.label = Sample.opening ∧
      ((∀ tr₁ t tr₂, tr = tr₁ ++ t :: tr₂ → Activated (tr₁ ++ [t]) t.after) ↔
        Meets Chain.KeepsActivated tr) := by
  obtain ⟨tr, hrun, hlabels⟩ := Sample.exists_run Sample.opening (by decide +kernel)
  exact ⟨tr, hlabels, activated_iff hrun⟩

end HosTla
