-- SUMMARY: Sweeps, finalization and export of sub-accounts, with the callbacks that follow them.
import HosTla.Registry.Mother
import HosTla.Registry.Business

/-!
# Reclaim and export

The methods of `reclaim.rs`.
-/

namespace HosTla

open Foundation

/-- The loop of `on_balances_checked`: the first token that blocks the reclaim,
or a panic. -/
def reclaimBlockReason :
    List PromiseResult → List AccountId → Result (Option (AccountId × BlockReason))
  | [], _ => return none
  | _ :: _, [] => .error .allowlistLengthMismatch
  | result :: results, token :: tokens =>
    match result.checked ftBalanceMaxLen with
    | .ok bytes =>
      match decodeU128 bytes with
      | none => .error .invalidFtBalanceResponse
      | some balance =>
        if balance > 0 then return some (token, .balance balance)
        else reclaimBlockReason results tokens
    | .error .failed => return some (token, .balanceQueryFailed)
    | .error (.tooLong _) => return some (token, .balanceQueryUnverifiable)

namespace TlaRegistry

/-- The entry and lifecycle checks `reclaim_sweep_ft` and `reclaim_finalize`
share. The result is the wallet the assets go to. -/
def reclaimDestination (r : TlaRegistry) (env : Env) (tlaId : AccountId) (key : Str) :
    Result AccountId := do
  let sub ← okOr (r.subAccounts.get key) .subAccountNotFound
  let tla ← okOr (r.tlas.get tlaId) .tlaNotFound
  rejectIf (effectiveSubLifecycle sub tla r.feeConfig.retractionNoticeNs env.blockTimestamp
    ≠ .reclaimable) .subAccountNotReclaimable
  return sub.mainWallet

def reclaimSweepFt (r : TlaRegistry) (env : Env) (tlaId : AccountId) (name : Str)
    (ft : AccountId) : Result Outcome := do
  r.assertNotPaused
  let key := subAccountKey tlaId name
  rejectIf (ft ∉ r.ftAllowlist) .tokenNotInAllowlist
  let subAccount ← okOr (AccountId.parse key) .invalidSubAccountId
  r.assertNotMother subAccount
  let destination ← r.reclaimDestination env tlaId key
  return .withPromise r (.sweepFt subAccount ft destination)

def reclaimFinalize (r : TlaRegistry) (env : Env) (tlaId : AccountId) (name : Str) :
    Result Outcome := do
  r.assertNotPaused
  let key := subAccountKey tlaId name
  let subAccount ← okOr (AccountId.parse key) .invalidSubAccountId
  r.assertNotMother subAccount
  let destination ← r.reclaimDestination env tlaId key
  let reclaim : PendingReclaim := { tlaId, name, destination }
  let allowlist := r.ftAllowlist.elems
  return .withPromise r
    (if allowlist = [] then .finalizeDelete subAccount reclaim
      else .checkBalances subAccount reclaim allowlist)

def onBalancesChecked (r : TlaRegistry) (results : List PromiseResult) (tlaId : AccountId)
    (name : Str) (destination : AccountId) (allowlist : List AccountId) : Result Outcome := do
  let key := subAccountKey tlaId name
  match ← reclaimBlockReason results allowlist with
  | some _ => return .of r
  | none => do
    let subAccount ← okOr (AccountId.parse key) .invalidSubAccountId
    return .withPromise r (.finalizeDelete subAccount { tlaId, name, destination })

/-- What `on_reclaim_finalized` and `on_export_settled` remove: the entry, its
sale records, and its place in the counts. -/
def removeSubAccount (r : TlaRegistry) (tlaId : AccountId) (key : Str) : TlaRegistry :=
  let r := { r with
    subAccounts := r.subAccounts.remove key
    listings := r.listings.remove key
    acceptedOffers := r.acceptedOffers.remove key
    subAccountCount := r.subAccountCount - 1 }
  r.businessCountRelease tlaId

def onReclaimFinalized (r : TlaRegistry) (promiseOk : Bool) (tlaId : AccountId) (name : Str) :
    Result Outcome :=
  if promiseOk then return .of (r.removeSubAccount tlaId (subAccountKey tlaId name))
  else return .of r

def exportSubAccount (r : TlaRegistry) (env : Env) (tlaId : AccountId) (name : Str) :
    Result Outcome := do
  r.assertAdmin env
  let key := subAccountKey tlaId name
  rejectIf (r.subAccounts.get key = none) .subAccountNotFound
  let subAccount ← okOr (AccountId.parse key) .invalidSubAccountId
  r.assertNotMother subAccount
  return .withPromise r (.exportSubAccount subAccount tlaId name)

/-- Unlike `on_reclaim_finalized`, this callback returns early when the entry is
already gone. -/
def onExportSettled (r : TlaRegistry) (promiseOk : Bool) (tlaId : AccountId) (name : Str) :
    Result Outcome :=
  let key := subAccountKey tlaId name
  if promiseOk ∧ r.subAccounts.containsKey key then return .of (r.removeSubAccount tlaId key)
  else return .of r

end TlaRegistry

end HosTla
