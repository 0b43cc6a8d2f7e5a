-- SUMMARY: The admin methods: TLA registration and suspension, admins, fee configuration, withdrawals and allowlists.
import HosTla.Registry.State

/-!
# Admin methods

The methods of `admin.rs`, in the order of the source.
-/

namespace HosTla

open Foundation

def maxAllowlistSize : ℕ := 40

namespace TlaRegistry

def registerTla (r : TlaRegistry) (env : Env) (tlaId : AccountId) (tlaType : TlaType)
    (premiumCategory : PremiumCategory) (licensee : Option AccountId) : Result Outcome := do
  r.assertAdmin env
  rejectIf (r.tlas.containsKey tlaId) .tlaAlreadyRegistered
  rejectIf (tlaType = .business ∧ licensee = none) .businessTlaRequiresLicensee
  let entry : TlaEntry := {
    tlaType, status := .registered, licensee, premiumCategory
    activatedAt := 0
    expiresAt := 0 }
  return .of { r with tlas := r.tlas.insert tlaId entry }

def suspendTla (r : TlaRegistry) (env : Env) (tlaId : AccountId) : Result Outcome := do
  r.assertAdmin env
  let entry ← okOr (r.tlas.get tlaId) .tlaNotFound
  return .of { r with tlas := r.tlas.insert tlaId { entry with status := .suspended } }

def unsuspendTla (r : TlaRegistry) (env : Env) (tlaId : AccountId) : Result Outcome := do
  r.assertAdmin env
  let entry ← okOr (r.tlas.get tlaId) .tlaNotFound
  rejectIf (entry.status ≠ .suspended) .tlaNotSuspended
  rejectIf (entry.tlaType = .business ∧ entry.licensee = none) .businessTlaMissingLicensee
  return .of { r with tlas := r.tlas.insert tlaId { entry with status := .active } }

def addAdmin (r : TlaRegistry) (env : Env) (accountId : AccountId) : Result Outcome := do
  r.assertAdmin env
  return .of { r with admins := r.admins.insert accountId }

def removeAdmin (r : TlaRegistry) (env : Env) (accountId : AccountId) : Result Outcome := do
  r.assertAdmin env
  rejectIf (r.admins.len ≤ 1) .cannotRemoveLastAdmin
  return .of { r with admins := r.admins.remove accountId }

def updateFeeConfig (r : TlaRegistry) (env : Env) (config : FeeConfig) : Result Outcome := do
  r.assertAdmin env
  rejectIf (config.rentTier5 = 0 ∧ config.rentTier8 = 0 ∧ config.rentTier10 = 0 ∧
    config.rentTier12plus = 0) .allRentTiersZero
  rejectIf (config.accountCreationDeposit = 0) .creationDepositZero
  rejectIf (config.resaleCommissionBps > 10000) .invalidCommissionRate
  return .of { r with feeConfig := config }

def withdraw (r : TlaRegistry) (env : Env) (amount : ℕ) (recipient : AccountId) :
    Result Outcome := do
  r.assertAdmin env
  rejectIf (amount = 0) .withdrawalAmountZero
  rejectIf (amount > r.totalRevenue) .insufficientRevenue
  rejectIf (satAdd u128Max r.totalPendingRefunds amount > env.availableBalance)
    .insufficientContractBalance
  let r := { r with totalRevenue := r.totalRevenue - amount }
  return (Outcome.of r).addPendingRefund recipient amount

/-- `add_ft_allowlist` and `add_nft_allowlist` on the set they extend. -/
def allowlistAdd (tokens : IterableSet AccountId) (token : AccountId) :
    Result (IterableSet AccountId) := do
  if token ∈ tokens then return tokens
  rejectIf (tokens.len ≥ maxAllowlistSize) .allowlistFull
  return tokens.insert token

def addFtAllowlist (r : TlaRegistry) (env : Env) (token : AccountId) : Result Outcome := do
  r.assertAdmin env
  let tokens ← allowlistAdd r.ftAllowlist token
  return .of { r with ftAllowlist := tokens }

def removeFtAllowlist (r : TlaRegistry) (env : Env) (token : AccountId) : Result Outcome := do
  r.assertAdmin env
  return .of { r with ftAllowlist := r.ftAllowlist.remove token }

def addNftAllowlist (r : TlaRegistry) (env : Env) (token : AccountId) : Result Outcome := do
  r.assertAdmin env
  let tokens ← allowlistAdd r.nftAllowlist token
  return .of { r with nftAllowlist := tokens }

def removeNftAllowlist (r : TlaRegistry) (env : Env) (token : AccountId) : Result Outcome := do
  r.assertAdmin env
  return .of { r with nftAllowlist := r.nftAllowlist.remove token }

def activateOpenTla (r : TlaRegistry) (env : Env) (tlaId : AccountId) : Result Outcome := do
  r.assertAdmin env
  let now := env.blockTimestamp
  let entry ← okOr (r.tlas.get tlaId) .tlaNotFound
  rejectIf (entry.status ≠ .registered) .tlaNotInRegisteredState
  rejectIf (entry.tlaType ≠ .open_) .wrongActivationEndpoint
  return .of { r with
    tlas := r.tlas.insert tlaId { entry with
      status := .active
      activatedAt := now
      expiresAt := satAdd u64Max now oneYearNs } }

end TlaRegistry

end HosTla
