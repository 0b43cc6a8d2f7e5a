-- SUMMARY: Retraction of business sub-accounts and the per-TLA sub-account cap.
import HosTla.Registry.State

/-!
# Business TLAs

The methods of `business.rs`.
-/

namespace HosTla

open Foundation

namespace TlaRegistry

def getBusinessSubCount (r : TlaRegistry) (tlaId : AccountId) : ℕ :=
  (r.businessSubCount.get tlaId).getD 0

def effectiveBusinessCap (r : TlaRegistry) (tlaId : AccountId) : ℕ :=
  ((r.businessSubCapOverride.get tlaId).getD r.feeConfig.businessMaxSubs).toNat

def businessCountCheckAndBump (r : TlaRegistry) (tlaId : AccountId) : Result TlaRegistry := do
  rejectIf (r.getBusinessSubCount tlaId ≥ r.effectiveBusinessCap tlaId) .maxBusinessSubsReached
  return { r with
    businessSubCount := r.businessSubCount.insert tlaId
      (satAdd u32Max (r.getBusinessSubCount tlaId) 1) }

def businessCountDecrement (r : TlaRegistry) (tlaId : AccountId) : TlaRegistry :=
  let count := r.getBusinessSubCount tlaId
  if count = 0 then r
  else
    let next := count - 1
    { r with
      businessSubCount :=
        if next = 0 then r.businessSubCount.remove tlaId
        else r.businessSubCount.insert tlaId next }

/-- The decrement the callbacks make when the TLA is a business. -/
def businessCountRelease (r : TlaRegistry) (tlaId : AccountId) : TlaRegistry :=
  if r.isBusiness tlaId then r.businessCountDecrement tlaId else r

def scheduleRetraction (r : TlaRegistry) (env : Env) (tlaId : AccountId) (name : Str) :
    Result Outcome := do
  assertOneYocto env
  r.assertNotPaused
  let key := subAccountKey tlaId name
  let tla ← okOr (r.tlas.get tlaId) .tlaNotFound
  rejectIf (tla.tlaType ≠ .business) .notBusinessTla
  let sub ← okOr (r.subAccounts.get key) .subAccountNotFound
  rejectIf (env.predecessor ≠ sub.owner) .onlyOwner
  rejectIf (sub.retractionAt ≠ none) .retractionAlreadyScheduled
  return .of { r with
    subAccounts := r.subAccounts.insert key { sub with
      retractionAt := some env.blockTimestamp } }

def cancelRetraction (r : TlaRegistry) (env : Env) (tlaId : AccountId) (name : Str) :
    Result Outcome := do
  assertOneYocto env
  r.assertNotPaused
  let key := subAccountKey tlaId name
  let sub ← okOr (r.subAccounts.get key) .subAccountNotFound
  rejectIf (env.predecessor ≠ sub.owner) .onlyOwner
  let retractionAt ← okOr sub.retractionAt .noRetractionScheduled
  rejectIf (env.blockTimestamp ≥ satAdd u64Max retractionAt r.feeConfig.retractionNoticeNs)
    .retractionAlreadyElapsed
  return .of { r with
    subAccounts := r.subAccounts.insert key { sub with retractionAt := none } }

def setBusinessSubCap (r : TlaRegistry) (env : Env) (tlaId : AccountId) (cap : Option UInt32) :
    Result Outcome := do
  r.assertAdmin env
  let tla ← okOr (r.tlas.get tlaId) .tlaNotFound
  rejectIf (tla.tlaType ≠ .business) .notBusinessTla
  return .of { r with
    businessSubCapOverride :=
      match cap with
      | some value => r.businessSubCapOverride.insert tlaId value
      | none => r.businessSubCapOverride.remove tlaId }

end TlaRegistry

end HosTla
