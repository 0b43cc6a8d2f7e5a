-- SUMMARY: Resale of held sub-accounts: listings, accepted offers, purchases and their settlement.
import HosTla.Registry.Mother

/-!
# Marketplace

The methods of `marketplace.rs` and the dispatch of `resale.rs`.
-/

namespace HosTla

open Foundation

def bpsDenominator : ℕ := 10000

/-- `ft_balance_block_reason` on one promise result. -/
def ftBalanceBlockReason (result : PromiseResult) : Option BlockReason :=
  match result.checked ftBalanceMaxLen with
  | .ok bytes =>
    match decodeU128 bytes with
    | some balance => if balance > 0 then some (.balance balance) else none
    | none => some .balanceUnverifiable
  | .error .failed => some .balanceQueryFailed
  | .error (.tooLong _) => some .balanceQueryUnverifiable

/-- The token is `none` where the source reports an empty text. -/
def saleBlockReason (results : List PromiseResult) (allowlist : List AccountId) :
    Option (Option AccountId × BlockReason) :=
  if results.length ≠ allowlist.length then some (none, .resultCountMismatch)
  else (allowlist.zip results).findSome? fun (token, result) =>
    (ftBalanceBlockReason result).map fun reason => (some token, reason)

namespace TlaRegistry

def assertSaleIdle (r : TlaRegistry) (key : Str) : Result Unit := do
  rejectIf ((r.listings.get key).any (·.settling)) .saleInProgress
  rejectIf ((r.acceptedOffers.get key).any (·.settling)) .saleInProgress

def assertSellable (r : TlaRegistry) (env : Env) (key : Str) (tlaId : AccountId) :
    Result AccountId := do
  let subAccount ← okOr (AccountId.parse key) .invalidSubAccountId
  r.assertNotMother subAccount
  let sub ← okOr (r.subAccounts.get key) .subAccountNotFound
  rejectIf (sub.retractionAt ≠ none) .retractionPending
  let tla ← okOr (r.tlas.get tlaId) .tlaNotFound
  rejectIf (tla.status ≠ .active) .subAccountNotSellable
  rejectIf (effectiveSubLifecycle sub tla r.feeConfig.retractionNoticeNs env.blockTimestamp
    ≠ .active) .subAccountNotSellable
  return sub.owner

def subAccountOwner (r : TlaRegistry) (key : Str) : Result AccountId := do
  let sub ← okOr (r.subAccounts.get key) .subAccountNotFound
  return sub.owner

def listSubAccount (r : TlaRegistry) (env : Env) (tlaId : AccountId) (name : Str) (price : ℕ) :
    Result Outcome := do
  assertOneYocto env
  r.assertNotPaused
  rejectIf (price = 0) .invalidPrice
  let key := subAccountKey tlaId name
  r.assertSaleIdle key
  let owner ← r.assertSellable env key tlaId
  rejectIf (env.predecessor ≠ owner) .onlyOwner
  return .of { r with listings := r.listings.insert key { price, settling := false } }

def unlistSubAccount (r : TlaRegistry) (env : Env) (tlaId : AccountId) (name : Str) :
    Result Outcome := do
  assertOneYocto env
  r.assertNotPaused
  let key := subAccountKey tlaId name
  r.assertSaleIdle key
  rejectIf (¬ r.listings.containsKey key) .notListed
  let owner ← r.subAccountOwner key
  rejectIf (env.predecessor ≠ owner) .onlyOwner
  return .of { r with listings := r.listings.remove key }

def acceptOffer (r : TlaRegistry) (env : Env) (tlaId : AccountId) (name : Str)
    (buyer : AccountId) (price : ℕ) : Result Outcome := do
  assertOneYocto env
  r.assertNotPaused
  rejectIf (price = 0) .invalidPrice
  let key := subAccountKey tlaId name
  r.assertSaleIdle key
  let owner ← r.assertSellable env key tlaId
  rejectIf (env.predecessor ≠ owner) .onlyOwner
  return .of { r with
    acceptedOffers := r.acceptedOffers.insert key { buyer, price, settling := false } }

def revokeOffer (r : TlaRegistry) (env : Env) (tlaId : AccountId) (name : Str) :
    Result Outcome := do
  assertOneYocto env
  r.assertNotPaused
  let key := subAccountKey tlaId name
  r.assertSaleIdle key
  rejectIf (¬ r.acceptedOffers.containsKey key) .noAcceptedOffer
  let owner ← r.subAccountOwner key
  rejectIf (env.predecessor ≠ owner) .onlyOwner
  return .of { r with acceptedOffers := r.acceptedOffers.remove key }

/-- The listing part of `resolve_and_lock_sale`, reached when no accepted offer
is bound to the buyer. -/
def lockListing (r : TlaRegistry) (key : Str) (deposit : ℕ) : Result (TlaRegistry × ℕ) := do
  let listing ← okOr (r.listings.get key) .notListed
  rejectIf (deposit < listing.price) .priceNotMet
  return ({ r with listings := r.listings.insert key { listing with settling := true } },
    listing.price)

def lockOffer (r : TlaRegistry) (key : Str) (offer : AcceptedOffer) (deposit : ℕ) :
    Result (TlaRegistry × ℕ) := do
  rejectIf (deposit < offer.price) .priceNotMet
  return ({ r with
    acceptedOffers := r.acceptedOffers.insert key { offer with settling := true } }, offer.price)

def resolveAndLockSale (r : TlaRegistry) (key : Str) (buyer : AccountId) (deposit : ℕ) :
    Result (TlaRegistry × ℕ) :=
  match r.acceptedOffers.get key with
  | some offer =>
    if offer.buyer = buyer then r.lockOffer key offer deposit else r.lockListing key deposit
  | none => r.lockListing key deposit

def clearSettling (r : TlaRegistry) (key : Str) : TlaRegistry :=
  { r with
    listings := r.listings.modify key fun l => { l with settling := false }
    acceptedOffers := r.acceptedOffers.modify key fun o => { o with settling := false } }

def buySubAccount (r : TlaRegistry) (env : Env) (tlaId : AccountId) (name : Str)
    (newOwnerKey : PublicKey) : Result Outcome := do
  r.assertNotPaused
  let key := subAccountKey tlaId name
  r.assertSaleIdle key
  let _ ← r.assertSellable env key tlaId
  let buyer := env.predecessor
  let deposit := env.attachedDeposit
  let (r, price) ← r.resolveAndLockSale key buyer deposit
  let subAccount ← okOr (AccountId.parse key) .invalidSubAccountId
  let settlement : PendingBuy := { tlaId, name, buyer, newOwnerKey, price, deposit }
  let allowlist := r.ftAllowlist.elems
  return .withPromise r
    (if allowlist = [] then .settleTransfer subAccount settlement
      else .checkBuyBalances subAccount settlement allowlist)

/-- `min(price * bps / 10000, price)` -/
def resaleCommission (r : TlaRegistry) (price : ℕ) : ℕ :=
  min (satMul u128Max price r.feeConfig.resaleCommissionBps / bpsDenominator) price

def onSubAccountSold (r : TlaRegistry) (promiseOk : Bool) (tlaId : AccountId) (name : Str)
    (buyer : AccountId) (price deposit : ℕ) : Result Outcome :=
  let key := subAccountKey tlaId name
  if promiseOk then
    match r.subAccounts.get key with
    | none =>
      let o := (Outcome.of r).addPendingRefund buyer deposit
      return { o with registry := o.registry.clearSettling key }
    | some sub =>
      let seller := sub.owner
      let commission := r.resaleCommission price
      let sellerProceeds := price - commission
      let r := { r with totalRevenue := satAdd u128Max r.totalRevenue commission }
      let o := (Outcome.of r).addPendingRefund seller sellerProceeds
      let o := o.refundExcess buyer (deposit - price)
      return { o with
        registry := { o.registry with
          subAccounts := o.registry.subAccounts.insert key { sub with
            owner := buyer
            mainWallet := buyer }
          listings := o.registry.listings.remove key
          acceptedOffers := o.registry.acceptedOffers.remove key } }
  else
    let o := (Outcome.of r).addPendingRefund buyer deposit
    return { o with registry := o.registry.clearSettling key }

def abortSale (r : TlaRegistry) (key : Str) (settlement : PendingBuy) : Outcome :=
  let o := (Outcome.of r).addPendingRefund settlement.buyer settlement.deposit
  { o with registry := o.registry.clearSettling key }

def onBuyBalancesChecked (r : TlaRegistry) (results : List PromiseResult)
    (settlement : PendingBuy) (allowlist : List AccountId) : Result Outcome :=
  let key := subAccountKey settlement.tlaId settlement.name
  match saleBlockReason results allowlist with
  | some _ => return r.abortSale key settlement
  | none =>
    match AccountId.parse key with
    | some subAccount => return .withPromise r (.settleTransfer subAccount settlement)
    | none => return r.abortSale key settlement

/-! ## Resale lockers -/

def resaleUnlock (r : TlaRegistry) (env : Env) (account : AccountId) (buyerKey : PublicKey) :
    Result Outcome := do
  r.assertAdmin env
  return .withPromise r (.resaleUnlock account buyerKey)

def resaleAbort (r : TlaRegistry) (env : Env) (account : AccountId) : Result Outcome := do
  r.assertAdmin env
  return .withPromise r (.resaleAbort account)

end TlaRegistry

end HosTla
