-- SUMMARY: An owner can take an account back at every instant until it becomes reclaimable, and at none after.
import HosTla.Chain.History
import HosTla.Registry.Accepted

/-!
# Recovery

An account is lost by its own grace, by that of its TLA or by an elapsed retraction notice.
The owner takes it back by cancelling the retraction and renewing. The two methods and the
check of a reclaim compare the clock with the same three deadlines, each in its own way.
-/

namespace HosTla

open Foundation

namespace TlaRegistry

/-- What the owner does: cancel the retraction if one is scheduled, then renew. -/
def recover (r : TlaRegistry) (env : Env) (tlaId : AccountId) (name : Str) (deposit : ℕ) :
    Result Outcome := do
  let sub := r.subAccounts.get (subAccountKey tlaId name)
  let r ← if (sub.bind SubAccountEntry.retractionAt).isSome then
      Outcome.registry <$> r.cancelRetraction { env with attachedDeposit := 1 } tlaId name
    else pure r
  r.renewSubAccount { env with attachedDeposit := deposit } tlaId name

variable {r : TlaRegistry} {env : Env} {tlaId : AccountId} {name : Str} {sub : SubAccountEntry}
  {tla : TlaEntry} {deposit : ℕ}

/-- The owner can cancel a retraction before its notice has elapsed. -/
theorem cancelRetraction_eq_ok (hpaused : r.paused = false)
    (hsub : r.subAccounts.get (subAccountKey tlaId name) = some sub)
    (howner : env.predecessor = sub.owner) {t : ℕ} (ht : sub.retractionAt = some t) {o : Outcome} :
    r.cancelRetraction { env with attachedDeposit := 1 } tlaId name = .ok o ↔
      env.blockTimestamp < satAdd u64Max t r.feeConfig.retractionNoticeNs ∧
        o = .of { r with
          subAccounts := r.subAccounts.insert (subAccountKey tlaId name)
            { sub with retractionAt := none } } := by
  simp [cancelRetraction, assertOneYocto, hpaused, hsub, howner, ht]

/-- The owner can renew before the two graces are over. -/
theorem renewSubAccount_isOk (hpaused : r.paused = false)
    (hsub : r.subAccounts.get (subAccountKey tlaId name) = some sub)
    (howner : env.predecessor = sub.owner) (hret : sub.retractionAt = none)
    (htla : r.tlas.get tlaId = some tla) (hpaid : calculateRent tla tlaId name r.feeConfig ≤ deposit) :
    (∃ o, r.renewSubAccount { env with attachedDeposit := deposit } tlaId name = .ok o) ↔
      env.blockTimestamp < satAdd u64Max sub.expiresAt gracePeriodNs ∧
        tla.lifecycle env.blockTimestamp ≠ .reclaimable := by
  simp [renewSubAccount, hpaused, hsub, howner, hret, htla, hpaid]

/-- Past the end of its grace an entry is past its expiry. -/
theorem lifecycle_eq_reclaimable_iff (hexpires : sub.expiresAt ≤ u64Max) {now : ℕ} :
    sub.lifecycle now = .reclaimable ↔ satAdd u64Max sub.expiresAt gracePeriodNs ≤ now := by
  rw [SubAccountEntry.lifecycle, expiryLifecycle_eq_reclaimable]
  unfold satAdd
  omega

/-- What the owner does goes through exactly while no cause has made the entry reclaimable. -/
theorem recover_isOk (hpaused : r.paused = false)
    (hsub : r.subAccounts.get (subAccountKey tlaId name) = some sub)
    (howner : env.predecessor = sub.owner) (htla : r.tlas.get tlaId = some tla)
    (hpaid : calculateRent tla tlaId name r.feeConfig ≤ deposit) :
    (∃ o, r.recover env tlaId name deposit = .ok o) ↔
      (∀ t, sub.retractionAt = some t →
        env.blockTimestamp < satAdd u64Max t r.feeConfig.retractionNoticeNs) ∧
      env.blockTimestamp < satAdd u64Max sub.expiresAt gracePeriodNs ∧
        tla.lifecycle env.blockTimestamp ≠ .reclaimable := by
  cases hret : sub.retractionAt with
  | none =>
    rw [← renewSubAccount_isOk hpaused hsub howner hret htla hpaid]
    simp [recover, hsub, hret, pure, Except.pure, bind, Except.bind]
  | some t =>
    -- The entry the renewal finds is the one the cancellation left.
    let sub' : SubAccountEntry := { sub with retractionAt := none }
    let r' : TlaRegistry := { r with
      subAccounts := r.subAccounts.insert (subAccountKey tlaId name) sub' }
    have hsub' : r'.subAccounts.get (subAccountKey tlaId name) = some sub' :=
      LookupMap.get_insert_self _ _ _
    have hrenew : (∃ o, r'.renewSubAccount { env with attachedDeposit := deposit } tlaId name =
        .ok o) ↔ env.blockTimestamp < satAdd u64Max sub.expiresAt gracePeriodNs ∧
          tla.lifecycle env.blockTimestamp ≠ .reclaimable := by
      have h := renewSubAccount_isOk (r := r') hpaused hsub' howner rfl htla hpaid
      exact h
    have hcancel (o : Outcome) := cancelRetraction_eq_ok hpaused hsub howner hret (o := o)
    have hrecover (o : Outcome) : r.recover env tlaId name deposit = .ok o ↔
        env.blockTimestamp < satAdd u64Max t r.feeConfig.retractionNoticeNs ∧
          r'.renewSubAccount { env with attachedDeposit := deposit } tlaId name = .ok o := by
      simp only [recover, hsub, Option.bind_some, hret, Option.isSome_some, if_true, bind_eq_ok,
        map_eq_ok, hcancel]
      constructor
      · rintro ⟨_, ⟨_, ⟨hnotice, rfl⟩, rfl⟩, ho⟩
        exact ⟨hnotice, ho⟩
      · rintro ⟨hnotice, ho⟩
        exact ⟨r', ⟨_, ⟨hnotice, rfl⟩, rfl⟩, ho⟩
    simp only [hrecover, exists_and_left, hrenew, Option.some.injEq, forall_eq']

end TlaRegistry

/-- For an entry and its own TLA in a state that is not paused, the owner can take the
account back exactly while it is not reclaimable, so at no instant is it lost to both or
open to both. -/
theorem recovers_iff_not_reclaimable {r : TlaRegistry} {env : Env} {name : Str}
    {sub : SubAccountEntry} {tla : TlaEntry} {deposit : ℕ} (hpaused : r.paused = false)
    (hsub : r.subAccounts.get (subAccountKey sub.tlaId name) = some sub)
    (htla : r.tlas.get sub.tlaId = some tla) (howner : env.predecessor = sub.owner)
    (hexpires : sub.expiresAt ≤ u64Max)
    (hpaid : calculateRent tla sub.tlaId name r.feeConfig ≤ deposit) :
    ((∃ o, r.recover env sub.tlaId name deposit = .ok o) ↔
        effectiveSubLifecycle sub tla r.feeConfig.retractionNoticeNs env.blockTimestamp ≠
          .reclaimable) ∧
      ((∃ o, r.recover env sub.tlaId name deposit = .ok o) ↔
        ¬ ∃ d, r.reclaimDestination env sub.tlaId (subAccountKey sub.tlaId name) = .ok d) := by
  have hreclaim : (∃ d, r.reclaimDestination env sub.tlaId (subAccountKey sub.tlaId name) = .ok d) ↔
      effectiveSubLifecycle sub tla r.feeConfig.retractionNoticeNs env.blockTimestamp =
        .reclaimable := by
    simp [TlaRegistry.reclaimDestination_eq_ok, hsub, htla]
  have hrecover := TlaRegistry.recover_isOk hpaused hsub howner htla hpaid
  have hlost : effectiveSubLifecycle sub tla r.feeConfig.retractionNoticeNs env.blockTimestamp ≠
      .reclaimable ↔ ∃ o, r.recover env sub.tlaId name deposit = .ok o := by
    rw [hrecover, ne_eq, effectiveSubLifecycle_eq_reclaimable, SubAccountEntry.Lapsed,
      TlaRegistry.lifecycle_eq_reclaimable_iff hexpires]
    simp only [not_or, not_exists, not_and, not_le]
    constructor
    · rintro ⟨htla, hnotice, hgrace⟩
      exact ⟨hnotice, hgrace, htla⟩
    · rintro ⟨hnotice, hgrace, htla⟩
      exact ⟨htla, hnotice, hgrace⟩
  exact ⟨hlost.symm, hlost.symm.trans (not_congr hreclaim.symm)⟩

namespace Sample

def retractingTla : TlaEntry where
  tlaType := .business
  status := .active
  licensee := some alice
  premiumCategory := .standard
  activatedAt := 0
  expiresAt := oneYearNs

def retractingSub : SubAccountEntry where
  owner := alice
  tlaId := tla
  mainWallet := alice
  rentedAt := 0
  expiresAt := oneYearNs
  retractionAt := some 5

/-- The account `n.hos` of Alice under a business TLA, with a retraction since time 5. -/
def retracting : TlaRegistry :=
  { TlaRegistry.new admin with
    tlas := LookupMap.empty.insert tla retractingTla
    subAccounts := LookupMap.empty.insert (subAccountKey tla name) retractingSub }

def aliceAt (now : ℕ) : Env where
  predecessor := alice
  attachedDeposit := 0
  accountBalance := 0
  storageReserve := 0
  blockTimestamp := now

/-- The first instant at which the notice of the retraction has elapsed. -/
def elapsed : ℕ := defaultFeeConfig.retractionNoticeNs + 5

end Sample

/-- At the last instant of the notice Alice recovers the account, and at the next one it can
be reclaimed. -/
theorem recovers_iff_not_reclaimable_retracting :
    ((∃ o, Sample.retracting.recover (Sample.aliceAt (Sample.elapsed - 1)) Sample.tla Sample.name
        oneNear = .ok o) ∧
      ¬ ∃ d, Sample.retracting.reclaimDestination (Sample.aliceAt (Sample.elapsed - 1)) Sample.tla
        (subAccountKey Sample.tla Sample.name) = .ok d) ∧
    ¬ ∃ o, Sample.retracting.recover (Sample.aliceAt Sample.elapsed) Sample.tla Sample.name
      oneNear = .ok o := by
  have hsub : Sample.retracting.subAccounts.get (subAccountKey Sample.retractingSub.tlaId
      Sample.name) = some Sample.retractingSub := LookupMap.get_insert_self _ _ _
  have htla : Sample.retracting.tlas.get Sample.retractingSub.tlaId = some Sample.retractingTla :=
    LookupMap.get_insert_self _ _ _
  have hexpires : Sample.retractingSub.expiresAt ≤ u64Max := by decide
  have hpaid : calculateRent Sample.retractingTla Sample.retractingSub.tlaId Sample.name
      Sample.retracting.feeConfig ≤ oneNear := by decide
  have hat (now : ℕ) := recovers_iff_not_reclaimable
    (show Sample.retracting.paused = false from rfl) hsub htla
    (show (Sample.aliceAt now).predecessor = Sample.retractingSub.owner from rfl) hexpires hpaid
  have hrecovers := (hat (Sample.elapsed - 1)).1.mpr (by decide)
  exact ⟨⟨hrecovers, (hat _).2.mp hrecovers⟩, fun h => absurd ((hat _).1.mp h) (by decide)⟩

end HosTla
