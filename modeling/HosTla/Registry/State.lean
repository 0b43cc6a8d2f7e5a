-- SUMMARY: The registry contract state, the call environment, the refund ledger and the methods of `lib.rs`.
import HosTla.Foundation.LookupMap
import HosTla.Foundation.IterableSet
import HosTla.Registry.Promise

/-!
# Registry state

A method of the registry takes the state and the environment of the call. It is
rejected with a `ContractError`, or it returns an `Outcome`: the new state, the
promise it creates, and a record of the refunds it credited. The record is for
statements about the ledger only, and no method reads it.
-/

namespace HosTla

open Foundation

def contractVersion : ℕ := 6

structure TlaRegistry where
  tlas : LookupMap AccountId TlaEntry
  subAccounts : LookupMap Str SubAccountEntry
  admins : IterableSet AccountId
  feeConfig : FeeConfig
  totalRevenue : ℕ
  subAccountCount : ℕ
  paused : Bool
  version : ℕ
  pendingRefunds : LookupMap AccountId ℕ
  totalPendingRefunds : ℕ
  ftAllowlist : IterableSet AccountId
  nftAllowlist : IterableSet AccountId
  mothers : LookupMap AccountId AccountId
  motherUseCount : LookupMap AccountId ℕ
  businessSubCount : LookupMap AccountId ℕ
  businessSubCapOverride : LookupMap AccountId UInt32
  listings : LookupMap Str Listing
  acceptedOffers : LookupMap Str AcceptedOffer

/-- What `env` answers during one call. -/
structure Env where
  predecessor : AccountId
  attachedDeposit : ℕ
  accountBalance : ℕ
  /-- `storage_byte_cost * storage_usage` -/
  storageReserve : ℕ
  blockTimestamp : ℕ

structure Outcome where
  registry : TlaRegistry
  promise : Option Promise
  credits : List (AccountId × ℕ)

namespace TlaRegistry

/-- The `#[init]` method. -/
def new (admin : AccountId) : TlaRegistry where
  tlas := .empty
  subAccounts := .empty
  admins := IterableSet.empty.insert admin
  feeConfig := defaultFeeConfig
  totalRevenue := 0
  subAccountCount := 0
  paused := false
  version := contractVersion
  pendingRefunds := .empty
  totalPendingRefunds := 0
  ftAllowlist := .empty
  nftAllowlist := .empty
  mothers := .empty
  motherUseCount := .empty
  businessSubCount := .empty
  businessSubCapOverride := .empty
  listings := .empty
  acceptedOffers := .empty

def getPendingRefund (r : TlaRegistry) (account : AccountId) : ℕ :=
  (r.pendingRefunds.get account).getD 0

def assertAdmin (r : TlaRegistry) (env : Env) : Result Unit :=
  rejectIf (env.predecessor ∉ r.admins) .onlyAdmin

def assertNotPaused (r : TlaRegistry) : Result Unit :=
  rejectIf (r.paused = true) .paused

def addPendingRefund (r : TlaRegistry) (account : AccountId) (amount : ℕ) : TlaRegistry :=
  { r with
    pendingRefunds := r.pendingRefunds.insert account
      (satAdd u128Max (r.getPendingRefund account) amount)
    totalPendingRefunds := satAdd u128Max r.totalPendingRefunds amount }

end TlaRegistry

def assertOneYocto (env : Env) : Result Unit :=
  rejectIf (env.attachedDeposit ≠ 1) .requiresOneYocto

def Env.availableBalance (env : Env) : ℕ := env.accountBalance - env.storageReserve

namespace Outcome

def of (r : TlaRegistry) : Outcome := ⟨r, none, []⟩

def withPromise (r : TlaRegistry) (p : Promise) : Outcome := ⟨r, some p, []⟩

def addPendingRefund (o : Outcome) (account : AccountId) (amount : ℕ) : Outcome :=
  { o with
    registry := o.registry.addPendingRefund account amount
    credits := o.credits ++ [(account, amount)] }

/-- `if excess > 0 { self.add_pending_refund(..) }` -/
def refundExcess (o : Outcome) (account : AccountId) (excess : ℕ) : Outcome :=
  if 0 < excess then o.addPendingRefund account excess else o

/-- The deposit that leaves the registry with the promise of the call. -/
def sent (o : Outcome) : ℕ := o.promise.elim 0 Promise.attachedDeposit

end Outcome

namespace TlaRegistry

def pause (r : TlaRegistry) (env : Env) : Result Outcome := do
  r.assertAdmin env
  return .of { r with paused := true }

def unpause (r : TlaRegistry) (env : Env) : Result Outcome := do
  r.assertAdmin env
  return .of { r with paused := false }

def claimRefund (r : TlaRegistry) (env : Env) : Result Outcome := do
  let caller := env.predecessor
  let amount := r.getPendingRefund caller
  rejectIf (amount = 0) .noPendingRefund
  rejectIf (amount > env.availableBalance) .insufficientContractBalance
  let r := { r with
    pendingRefunds := r.pendingRefunds.remove caller
    totalPendingRefunds := r.totalPendingRefunds - amount }
  return .withPromise r (.transferRefund caller amount)

/-- The refund of a failed transfer goes back to its entry. It is no new credit,
so it is not recorded as one. -/
def onClaimRefundSettled (r : TlaRegistry) (promiseOk : Bool) (caller : AccountId)
    (amount : ℕ) : Result Outcome :=
  if promiseOk then return .of r
  else return .of (r.addPendingRefund caller amount)

def migrate (r : TlaRegistry) (env : Env) : Result Outcome := do
  r.assertAdmin env
  rejectIf (r.version ≥ contractVersion) .alreadyAtCurrentVersion
  return .of { r with version := contractVersion }

/-- `tlas.get(..).map(|t| t.tla_type == Business).unwrap_or(false)` -/
def isBusiness (r : TlaRegistry) (tlaId : AccountId) : Bool :=
  (r.tlas.get tlaId).elim false fun t => t.tlaType = .business

end TlaRegistry

end HosTla
