-- SUMMARY: What the registry publishes of TLAs, sub-accounts, prices and offers.
import HosTla.Registry.Business

/-!
# Views

The views of `views.rs`, `business.rs` and `marketplace.rs`. A view reads the clock, and
no call of it changes the state.
-/

namespace HosTla

open Foundation

structure SubAccountView where
  fullName : Str
  owner : AccountId
  tlaId : AccountId
  mainWallet : AccountId
  lifecycle : LifecycleStatus
  rentedAt : ℕ
  expiresAt : ℕ
  annualRent : ℕ
deriving DecidableEq

/-- The TLA is read for the rent only. -/
def toSubView (key : Str) (entry : SubAccountEntry) (tla : TlaEntry) (tlaId : AccountId)
    (name : Str) (config : FeeConfig) (now : ℕ) : SubAccountView where
  fullName := key
  owner := entry.owner
  tlaId := entry.tlaId
  mainWallet := entry.mainWallet
  lifecycle := entry.lifecycle now
  rentedAt := entry.rentedAt
  expiresAt := entry.expiresAt
  annualRent := calculateRent tla tlaId name config

/-- An entry without its TLA panics. -/
def TlaRegistry.getSubAccount (r : TlaRegistry) (now : ℕ) (tlaId : AccountId) (name : Str) :
    Result (Option SubAccountView) :=
  let key := subAccountKey tlaId name
  match r.subAccounts.get key with
  | none => return none
  | some sub => do
    let tla ← okOr (r.tlas.get tlaId) .tlaNotFound
    return some (toSubView key sub tla tlaId name r.feeConfig now)

def TlaRegistry.isNameAvailable (r : TlaRegistry) (tlaId : AccountId) (name : Str) : Bool :=
  !r.subAccounts.containsKey (subAccountKey tlaId name)

/-! ## TLAs -/

structure TlaView where
  tlaId : AccountId
  tlaType : TlaType
  lifecycle : LifecycleStatus
  licensee : Option AccountId
  premiumCategory : PremiumCategory
  activatedAt : ℕ
  expiresAt : ℕ
  annualRent : ℕ
deriving DecidableEq

def toTlaView (tlaId : AccountId) (entry : TlaEntry) (config : FeeConfig) (now : ℕ) :
    TlaView where
  tlaId := tlaId
  tlaType := entry.tlaType
  lifecycle := entry.lifecycle now
  licensee := entry.licensee
  premiumCategory := entry.premiumCategory
  activatedAt := entry.activatedAt
  expiresAt := entry.expiresAt
  annualRent := baseRent (byteLen tlaId.chars % 256) config

def TlaRegistry.getTla (r : TlaRegistry) (now : ℕ) (tlaId : AccountId) : Option TlaView :=
  (r.tlas.get tlaId).map fun entry => toTlaView tlaId entry r.feeConfig now

/-! ## Prices -/

def TlaRegistry.getFeeConfig (r : TlaRegistry) : FeeConfig := r.feeConfig

structure RentPriceView where
  rentYocto : ℕ
  creationDepositYocto : ℕ
  totalYocto : ℕ
deriving DecidableEq

def TlaRegistry.getRentPrice (r : TlaRegistry) (tlaId : AccountId) (name : Str) :
    Result RentPriceView := do
  let tla ← okOr (r.tlas.get tlaId) .tlaNotFound
  let rent := calculateRent tla tlaId name r.feeConfig
  let deposit := r.feeConfig.accountCreationDeposit
  return {
    rentYocto := rent
    creationDepositYocto := deposit
    totalYocto := satAdd u128Max rent deposit }

structure BusinessRenewalCostView where
  tlaId : AccountId
  tlaRentYocto : ℕ
  perSubYocto : ℕ
  subCount : ℕ
  totalYocto : ℕ
deriving DecidableEq

def TlaRegistry.getBusinessRenewalCost (r : TlaRegistry) (tlaId : AccountId) :
    Result BusinessRenewalCostView := do
  let tla ← okOr (r.tlas.get tlaId) .tlaNotFound
  rejectIf (tla.tlaType ≠ .business) .notBusinessTla
  let tlaRent := baseRent (byteLen tlaId.chars % 256) r.feeConfig
  let perSub := r.feeConfig.subFeePerAccount
  let count := r.getBusinessSubCount tlaId
  return {
    tlaId
    tlaRentYocto := tlaRent
    perSubYocto := perSub
    subCount := count
    totalYocto := satAdd u128Max tlaRent (satMul u128Max perSub count) }

structure ListingView where
  fullName : Str
  priceYocto : ℕ
  settling : Bool
deriving DecidableEq

def TlaRegistry.getListing (r : TlaRegistry) (tlaId : AccountId) (name : Str) :
    Option ListingView :=
  let key := subAccountKey tlaId name
  (r.listings.get key).map fun l =>
    { fullName := key, priceYocto := l.price, settling := l.settling }

structure AcceptedOfferView where
  fullName : Str
  buyer : AccountId
  priceYocto : ℕ
  settling : Bool
deriving DecidableEq

def TlaRegistry.getAcceptedOffer (r : TlaRegistry) (tlaId : AccountId) (name : Str) :
    Option AcceptedOfferView :=
  let key := subAccountKey tlaId name
  (r.acceptedOffers.get key).map fun o =>
    { fullName := key, buyer := o.buyer, priceYocto := o.price, settling := o.settling }

structure RegistryStats where
  tlaCount : ℕ
  subAccountCount : ℕ
  totalRevenueYocto : ℕ
  totalPendingRefundsYocto : ℕ
deriving DecidableEq

end HosTla
