-- SUMMARY: What each configuration method does, one constructor for each of its branches.
import HosTla.Registry.Accepted

/-!
# Configuration

`Accepted` says of a configuration method only which fields it may write. `Configured`
says what it writes.
-/

namespace HosTla

open Foundation

inductive Configured (r : TlaRegistry) : Op → TlaRegistry → Prop
  | pause : Configured r .pause { r with paused := true }
  | unpause : Configured r .unpause { r with paused := false }
  | migrate (hversion : r.version < contractVersion) :
      Configured r .migrate { r with version := contractVersion }
  | addAdmin {a : AccountId} : Configured r (.addAdmin a) { r with admins := r.admins.insert a }
  | removeAdmin {a : AccountId} (hlen : 1 < r.admins.len) :
      Configured r (.removeAdmin a) { r with admins := r.admins.remove a }
  | ftKnown {token : AccountId} (hknown : token ∈ r.ftAllowlist) :
      Configured r (.addFtAllowlist token) r
  | ftAdded {token : AccountId} (hnew : token ∉ r.ftAllowlist)
      (hroom : r.ftAllowlist.len < maxAllowlistSize) :
      Configured r (.addFtAllowlist token) { r with ftAllowlist := r.ftAllowlist.insert token }
  | ftRemoved {token : AccountId} :
      Configured r (.removeFtAllowlist token) { r with ftAllowlist := r.ftAllowlist.remove token }
  | nftKnown {token : AccountId} (hknown : token ∈ r.nftAllowlist) :
      Configured r (.addNftAllowlist token) r
  | nftAdded {token : AccountId} (hnew : token ∉ r.nftAllowlist)
      (hroom : r.nftAllowlist.len < maxAllowlistSize) :
      Configured r (.addNftAllowlist token) { r with nftAllowlist := r.nftAllowlist.insert token }
  | nftRemoved {token : AccountId} :
      Configured r (.removeNftAllowlist token)
        { r with nftAllowlist := r.nftAllowlist.remove token }
  | capSet {tlaId : AccountId} {tla : TlaEntry} {cap : Option UInt32}
      (htla : r.tlas.get tlaId = some tla) (htype : tla.tlaType = .business) :
      Configured r (.setBusinessSubCap tlaId cap) { r with
        businessSubCapOverride := cap.elim (r.businessSubCapOverride.remove tlaId)
          (r.businessSubCapOverride.insert tlaId) }

theorem TlaRegistry.allowlistAdd_eq_ok {tokens tokens' : IterableSet AccountId} {token : AccountId} :
    allowlistAdd tokens token = .ok tokens' ↔
      (token ∈ tokens ∧ tokens' = tokens) ∨
        (token ∉ tokens ∧ tokens.len < maxAllowlistSize ∧ tokens' = tokens.insert token) := by
  unfold allowlistAdd
  split
  · simp [*]
  · simp [*]

variable {env : Env} {r : TlaRegistry} {o : Outcome} {op : Op}

theorem configured_of_run (hop : op.configures = true) (h : op.run env r = .ok o) :
    env.predecessor ∈ r.admins ∧ ∃ r', o = .of r' ∧ Configured r op r' := by
  cases op <;> cases hop
  all_goals
    simp only [Op.run, TlaRegistry.pause, TlaRegistry.unpause, TlaRegistry.migrate,
      TlaRegistry.addAdmin, TlaRegistry.removeAdmin, TlaRegistry.addFtAllowlist,
      TlaRegistry.removeFtAllowlist, TlaRegistry.addNftAllowlist,
      TlaRegistry.removeNftAllowlist, TlaRegistry.setBusinessSubCap, bind_eq_ok, okOr_eq_ok,
      rejectIf_eq_ok, pure_eq_ok, TlaRegistry.assertAdmin_eq_ok, TlaRegistry.allowlistAdd_eq_ok, not_le,
      not_not, ge_iff_le] at h
  case pause => obtain ⟨-, hadmin, rfl⟩ := h; exact ⟨hadmin, _, rfl, .pause⟩
  case unpause => obtain ⟨-, hadmin, rfl⟩ := h; exact ⟨hadmin, _, rfl, .unpause⟩
  case migrate =>
    obtain ⟨-, hadmin, -, hversion, rfl⟩ := h
    exact ⟨hadmin, _, rfl, .migrate hversion⟩
  case addAdmin => obtain ⟨-, hadmin, rfl⟩ := h; exact ⟨hadmin, _, rfl, .addAdmin⟩
  case removeAdmin =>
    obtain ⟨-, hadmin, -, hlen, rfl⟩ := h
    exact ⟨hadmin, _, rfl, .removeAdmin hlen⟩
  case addFtAllowlist =>
    obtain ⟨-, hadmin, tokens, ⟨hknown, rfl⟩ | ⟨hnew, hroom, rfl⟩, rfl⟩ := h
    · exact ⟨hadmin, _, rfl, .ftKnown hknown⟩
    · exact ⟨hadmin, _, rfl, .ftAdded hnew hroom⟩
  case removeFtAllowlist => obtain ⟨-, hadmin, rfl⟩ := h; exact ⟨hadmin, _, rfl, .ftRemoved⟩
  case addNftAllowlist =>
    obtain ⟨-, hadmin, tokens, ⟨hknown, rfl⟩ | ⟨hnew, hroom, rfl⟩, rfl⟩ := h
    · exact ⟨hadmin, _, rfl, .nftKnown hknown⟩
    · exact ⟨hadmin, _, rfl, .nftAdded hnew hroom⟩
  case removeNftAllowlist => obtain ⟨-, hadmin, rfl⟩ := h; exact ⟨hadmin, _, rfl, .nftRemoved⟩
  case setBusinessSubCap tlaId cap =>
    obtain ⟨-, hadmin, tla, htla, -, htype, rfl⟩ := h
    cases cap <;> exact ⟨hadmin, _, rfl, .capSet htla htype⟩

end HosTla
