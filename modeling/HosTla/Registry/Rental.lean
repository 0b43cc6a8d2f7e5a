-- SUMMARY: Activation and renewal of TLAs, rental and renewal of sub-accounts, and the creation callback.
import HosTla.Registry.Mother
import HosTla.Registry.Business

/-!
# Rentals

The methods of `rental.rs` and the callback of `callbacks.rs`.
-/

namespace HosTla

open Foundation

namespace TlaRegistry

def activateTla (r : TlaRegistry) (env : Env) (tlaId : AccountId) : Result Outcome := do
  r.assertNotPaused
  let caller := env.predecessor
  let rent := baseRent (byteLen tlaId.chars % 256) r.feeConfig
  let required := satAdd u128Max r.feeConfig.tlaAllocationFee rent
  let attached := env.attachedDeposit
  rejectIf (attached < required) .insufficientPayment
  let entry ← okOr (r.tlas.get tlaId) .tlaNotFound
  rejectIf (entry.status ≠ .registered) .tlaNotInRegisteredState
  rejectIf (entry.tlaType ≠ .business) .wrongActivationEndpoint
  let licensee ← okOr entry.licensee .businessTlaMissingLicensee
  rejectIf (caller ≠ licensee) .onlyLicensee
  let now := env.blockTimestamp
  let r := { r with
    tlas := r.tlas.insert tlaId { entry with
      status := .active
      activatedAt := now
      expiresAt := satAdd u64Max now oneYearNs }
    totalRevenue := satAdd u128Max r.totalRevenue required }
  return (Outcome.of r).refundExcess caller (attached - required)

/-- The licensee check of the methods that act on a business TLA. -/
def assertLicensee (entry : TlaEntry) (caller : AccountId) : Result Unit :=
  if entry.tlaType = .business then do
    let licensee ← okOr entry.licensee .businessTlaMissingLicensee
    rejectIf (caller ≠ licensee) .onlyLicensee
  else return ()

def rentSubAccount (r : TlaRegistry) (env : Env) (tlaId : AccountId) (name : Str)
    (ownerKey : PublicKey) (mainWallet : AccountId) : Result Outcome := do
  r.assertNotPaused
  validateName name
  let key := subAccountKey tlaId name
  rejectIf (r.subAccounts.containsKey key) .subAccountNameTaken
  rejectIf (mainWallet.chars = key) .mainWalletEqualsSubAccount
  let caller := env.predecessor
  let now := env.blockTimestamp
  let entry ← okOr (r.tlas.get tlaId) .tlaNotFound
  rejectIf (¬ entry.isAcceptingRentals now) .tlaNotAcceptingRentals
  assertLicensee entry caller
  let rent := calculateRent entry tlaId name r.feeConfig
  let creationDeposit := r.feeConfig.accountCreationDeposit
  let attached := env.attachedDeposit
  rejectIf (attached < satAdd u128Max rent creationDeposit) .insufficientPayment
  let r := r.ensureMotherDefault caller
  let r ← if entry.tlaType = .business then r.businessCountCheckAndBump tlaId else pure r
  let sub : SubAccountEntry := {
    owner := caller
    tlaId
    mainWallet
    rentedAt := now
    expiresAt := satAdd u64Max now oneYearNs
    retractionAt := none }
  let r := { r with subAccounts := r.subAccounts.insert key sub }
  return .withPromise r (.createSubAccount
    { tlaId, name, ownerKey, creationDeposit, payer := caller, rent, attached })

/-- Open TLAs are renewed by an admin. -/
def assertAdminUnlessBusiness (r : TlaRegistry) (env : Env) (entry : TlaEntry) : Result Unit :=
  if entry.tlaType = .business then return () else r.assertAdmin env

def renewTla (r : TlaRegistry) (env : Env) (tlaId : AccountId) : Result Outcome := do
  r.assertNotPaused
  let caller := env.predecessor
  let rent := baseRent (byteLen tlaId.chars % 256) r.feeConfig
  let now := env.blockTimestamp
  let entry ← okOr (r.tlas.get tlaId) .tlaNotFound
  rejectIf (entry.status ≠ .active) .tlaNotActive
  rejectIf (now ≥ satAdd u64Max entry.expiresAt gracePeriodNs) .tlaPastGracePeriod
  assertLicensee entry caller
  r.assertAdminUnlessBusiness env entry
  let attached := env.attachedDeposit
  rejectIf (attached < rent) .insufficientPayment
  let r := { r with
    tlas := r.tlas.insert tlaId { entry with
      expiresAt := satAdd u64Max (max now entry.expiresAt) oneYearNs }
    totalRevenue := satAdd u128Max r.totalRevenue rent }
  return (Outcome.of r).refundExcess caller (attached - rent)

def setMainWallet (r : TlaRegistry) (env : Env) (tlaId : AccountId) (name : Str)
    (newWallet : AccountId) : Result Outcome := do
  assertOneYocto env
  r.assertNotPaused
  let key := subAccountKey tlaId name
  rejectIf (newWallet.chars = key) .mainWalletEqualsSubAccount
  let sub ← okOr (r.subAccounts.get key) .subAccountNotFound
  rejectIf (env.predecessor ≠ sub.owner) .onlyOwner
  return .of { r with
    subAccounts := r.subAccounts.insert key { sub with mainWallet := newWallet } }

def renewSubAccount (r : TlaRegistry) (env : Env) (tlaId : AccountId) (name : Str) :
    Result Outcome := do
  r.assertNotPaused
  let key := subAccountKey tlaId name
  let caller := env.predecessor
  let now := env.blockTimestamp
  let sub ← okOr (r.subAccounts.get key) .subAccountNotFound
  rejectIf (now ≥ satAdd u64Max sub.expiresAt gracePeriodNs) .subAccountPastGracePeriod
  rejectIf (caller ≠ sub.owner) .onlyOwner
  rejectIf (sub.retractionAt ≠ none) .retractionPending
  let tla ← okOr (r.tlas.get tlaId) .tlaNotFound
  rejectIf (tla.lifecycle now = .reclaimable) .tlaPastGracePeriod
  let rent := calculateRent tla tlaId name r.feeConfig
  let attached := env.attachedDeposit
  rejectIf (attached < rent) .insufficientPayment
  let r := { r with
    subAccounts := r.subAccounts.insert key { sub with
      expiresAt := satAdd u64Max (max now sub.expiresAt) oneYearNs }
    totalRevenue := satAdd u128Max r.totalRevenue rent }
  return (Outcome.of r).refundExcess caller (attached - rent)

def onSubAccountCreated (r : TlaRegistry) (promiseOk : Bool) (tlaId : AccountId) (name : Str)
    (payer : AccountId) (rent attached : ℕ) : Result Outcome :=
  let key := subAccountKey tlaId name
  if promiseOk then do
    let r := { r with
      subAccountCount := satAdd u64Max r.subAccountCount 1
      totalRevenue := satAdd u128Max r.totalRevenue rent }
    let charged := satAdd u128Max rent r.feeConfig.accountCreationDeposit
    let o := (Outcome.of r).refundExcess payer (attached - charged)
    -- The event reads the entry, and a missing one panics after the writes above.
    let _ ← okOr (o.registry.subAccounts.get key) .subAccountNotFound
    return o
  else
    let r := { r with subAccounts := r.subAccounts.remove key }
    let r := r.businessCountRelease tlaId
    return (Outcome.of r).addPendingRefund payer attached

end TlaRegistry

end HosTla
