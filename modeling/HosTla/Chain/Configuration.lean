-- SUMMARY: What holds of the registry on every chain reached, when the proof looks into the configuration methods.
import HosTla.Chain.InFlight
import HosTla.Registry.Configured

/-!
# Configuration on a chain

The rule `Reached.registry` shows an accepted configuration method as any change of the
fields it may write. The rule of this module shows what the method does. The sizes of the
lists admins keep follow.
-/

namespace HosTla

open Foundation

namespace Chain

variable {c c' : Chain} {l : Label}

/-- The revenue is kept by a saturating counter of 128 bits. -/
theorem Reached.totalRevenue_le {g : Genesis} (h : c.Reached g) :
    c.registry.totalRevenue ≤ u128Max := by
  refine h.registry (I := fun r => r.totalRevenue ≤ u128Max) (Nat.zero_le _) ?_ ?_
  · intro env r op o hI ho
    cases ho with
    | withdraw => exact Nat.le_trans (Nat.sub_le _ _) hI
    | activateTla | renewTla | renewSubAccount => exact Nat.min_le_right _ _
    | _ => exact hI
  · intro r fl o hI ho
    cases ho with
    | created | sold => exact Nat.min_le_right _ _
    | _ => exact hI

theorem run_of_callOutcome {predecessor : AccountId} {deposit reserve : ℕ} {op : Op} {o : Outcome}
    (h : c.callOutcome predecessor deposit reserve op = some o) :
    op.run (c.callEnv predecessor deposit reserve) c.registry = .ok o := by
  unfold callOutcome at h
  split at h
  · cases h
  · cases hres : op.run (c.callEnv predecessor deposit reserve) c.registry with
    | ok o' => rw [hres] at h; cases h; rfl
    | error e => rw [hres] at h; cases h

theorem configured_of_callOutcome {predecessor : AccountId} {deposit reserve : ℕ} {op : Op}
    {o : Outcome} (h : c.callOutcome predecessor deposit reserve op = some o)
    (hop : op.configures = true) :
    predecessor ∈ c.registry.admins ∧ ∃ r', o = .of r' ∧ Configured c.registry op r' :=
  configured_of_run hop (run_of_callOutcome h)

theorem Reached.registry_configured {g : Genesis} {I : TlaRegistry → Prop} (h : c.Reached g)
    (hinit : I (Chain.init g).registry)
    (hconfigured : ∀ r op r', I r → Configured r op r' → I r')
    (haccepted : ∀ env r op o, I r → op.configures = false → Accepted env r op o → I o.registry)
    (hsettled : ∀ r fl o, I r → Settled r fl o → I o.registry) : I c.registry := by
  refine h.invariant (I := fun c => I c.registry) hinit ?_
  intro c l c' hI hstep
  rcases (move_of_step hstep).registry with
    heq | ⟨_, _, _, op, o, -, hcall, -, ho, heq⟩ | ⟨_, _, _, _, -, -, ho, heq⟩
  · rwa [heq]
  · rw [heq]
    cases hop : op.configures with
    | true =>
      obtain ⟨-, r', rfl, hr'⟩ := configured_of_callOutcome hcall hop
      exact hconfigured _ _ _ hI hr'
    | false => exact haccepted _ _ _ _ hI hop ho
  · rw [heq]
    exact hsettled _ _ _ hI ho

end Chain

/-- Somebody is admin, and the allowlists are no longer than a fan-out may be. -/
structure TlaRegistry.Listed (r : TlaRegistry) : Prop where
  admins : 0 < r.admins.len
  ft : r.ftAllowlist.len ≤ maxAllowlistSize
  nft : r.nftAllowlist.len ≤ maxAllowlistSize

theorem Configured.listed {r r' : TlaRegistry} {op : Op} (hr : r.Listed) (h : Configured r op r') :
    r'.Listed := by
  cases h with
  | @addAdmin a =>
    refine ⟨?_, hr.ft, hr.nft⟩
    by_cases hmem : a ∈ r.admins
    · rw [show ({ r with admins := r.admins.insert a } : TlaRegistry).admins = r.admins from
        IterableSet.insert_of_mem hmem]
      exact hr.admins
    · rw [show ({ r with admins := r.admins.insert a } : TlaRegistry).admins.len =
        r.admins.len + 1 from IterableSet.len_insert_of_notMem hmem]
      exact Nat.succ_pos _
  | @removeAdmin a hlen =>
    refine ⟨?_, hr.ft, hr.nft⟩
    have hkept := (r.admins.len_remove a).2
    show 0 < (r.admins.remove a).len
    omega
  | ftAdded hnew hroom =>
    refine ⟨hr.admins, ?_, hr.nft⟩
    have hadded := IterableSet.len_insert_of_notMem hnew
    exact Nat.le_trans (Nat.le_of_eq hadded) hroom
  | @ftRemoved token =>
    exact ⟨hr.admins, Nat.le_trans (r.ftAllowlist.len_remove token).1 hr.ft, hr.nft⟩
  | nftAdded hnew hroom =>
    refine ⟨hr.admins, hr.ft, ?_⟩
    have hadded := IterableSet.len_insert_of_notMem hnew
    exact Nat.le_trans (Nat.le_of_eq hadded) hroom
  | @nftRemoved token =>
    exact ⟨hr.admins, hr.ft, Nat.le_trans (r.nftAllowlist.len_remove token).1 hr.nft⟩
  | _ => exact ⟨hr.admins, hr.ft, hr.nft⟩

/-- Only configuration methods write the lists. -/
theorem Accepted.lists {env : Env} {r : TlaRegistry} {op : Op} {o : Outcome}
    (hop : op.configures = false) (h : Accepted env r op o) :
    o.registry.admins = r.admins ∧ o.registry.ftAllowlist = r.ftAllowlist ∧
      o.registry.nftAllowlist = r.nftAllowlist := by
  cases h with
  | configured hop' => rw [hop] at hop'; cases hop'
  | _ => exact ⟨rfl, rfl, rfl⟩

theorem Settled.lists {r : TlaRegistry} {fl : Flight} {o : Outcome} (h : Settled r fl o) :
    o.registry.admins = r.admins ∧ o.registry.ftAllowlist = r.ftAllowlist ∧
      o.registry.nftAllowlist = r.nftAllowlist := by
  cases h <;> exact ⟨rfl, rfl, rfl⟩

theorem TlaRegistry.Listed.of_eq {r r' : TlaRegistry} (hr : r.Listed)
    (h : r'.admins = r.admins ∧ r'.ftAllowlist = r.ftAllowlist ∧ r'.nftAllowlist = r.nftAllowlist) :
    r'.Listed :=
  ⟨h.1 ▸ hr.admins, h.2.1 ▸ hr.ft, h.2.2 ▸ hr.nft⟩

theorem Chain.Reached.listed {g : Genesis} {c : Chain} (h : c.Reached g) : c.registry.Listed := by
  refine h.registry_configured ?_ ?_ ?_ ?_
  · exact ⟨by simp [Chain.init, TlaRegistry.new, IterableSet.len, IterableSet.insert,
      IterableSet.empty], Nat.zero_le _, Nat.zero_le _⟩
  · intro r op r' hr hr'
    exact hr'.listed hr
  · intro env r op o hr hop ho
    exact hr.of_eq (ho.lists hop)
  · intro r fl o hr ho
    exact hr.of_eq ho.lists

end HosTla
