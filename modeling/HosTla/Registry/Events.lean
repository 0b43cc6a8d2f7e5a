-- SUMMARY: The events of the registry, the log line each is written as, and the events every method emits.
import HosTla.Foundation.Json
import HosTla.Registry.Op

/-!
# Events

`events.rs`, and the `emit` calls of all methods and callbacks. A constructor of `Event`
is one event name with the values its structure holds. An account, an amount and a time
stand for the text or the number they are written as.
-/

namespace HosTla

open Foundation Foundation.Json

inductive MotherSource
  | default_
  | explicit
deriving DecidableEq

inductive RefundReason
  | transferFailed
  | creationFailed
deriving DecidableEq

inductive Event
  | contractPaused (by_ : AccountId)
  | contractUnpaused (by_ : AccountId)
  | refundPending (account : AccountId) (amount : ℕ) (reason : RefundReason)
  | tlaRegistered (tlaId : AccountId) (tlaType : TlaType) (premiumCategory : PremiumCategory)
      (licensee : Option AccountId)
  | tlaSuspended (tlaId by_ : AccountId)
  | tlaUnsuspended (tlaId by_ : AccountId)
  | adminAdded (account by_ : AccountId)
  | adminRemoved (account by_ : AccountId)
  | feeConfigUpdated (by_ : AccountId)
  | withdrawalQueued (amount : ℕ) (recipient : AccountId)
  | ftAllowlistAdded (token by_ : AccountId)
  | ftAllowlistRemoved (token by_ : AccountId)
  | nftAllowlistAdded (token by_ : AccountId)
  | nftAllowlistRemoved (token by_ : AccountId)
  | tlaActivated (tlaId : AccountId) (expiresAt paid : ℕ)
  | tlaRenewed (entity : AccountId) (newExpiresAt paid : ℕ)
  | subAccountRented (fullName : Str) (tlaId owner : AccountId) (rent expiresAt : ℕ)
  | subAccountRenewed (entity : Str) (newExpiresAt paid : ℕ)
  | mainWalletUpdated (fullName : Str) (newWallet : AccountId)
  | reclaimFinalizeBlocked (fullName : Str) (token : AccountId) (reason : BlockReason)
  | subAccountReclaimed (fullName : Str) (tlaId sweptTo : AccountId)
  | subAccountExported (fullName : Str) (tlaId : AccountId)
  | motherSet (user mother : AccountId) (source : MotherSource)
  | motherCleared (user previousMother by_ : AccountId)
  | subAccountRetractionScheduled (fullName : Str) (retractionAt : ℕ) (by_ : AccountId)
  | subAccountRetractionCanceled (fullName : Str) (by_ : AccountId)
  | businessSubCapSet (tlaId : AccountId) (cap : Option UInt32) (by_ : AccountId)
  | resaleUnlockRequested (account by_ : AccountId)
  | resaleAbortRequested (account by_ : AccountId)
  | subAccountListed (fullName : Str) (price : ℕ) (seller : AccountId)
  | subAccountUnlisted (fullName : Str) (by_ : AccountId)
  | offerAccepted (fullName : Str) (buyer : AccountId) (price : ℕ) (seller : AccountId)
  | offerRevoked (fullName : Str) (by_ : AccountId)
  | subAccountSold (fullName : Str) (tlaId seller buyer : AccountId)
      (price commission sellerProceeds : ℕ)
  | subAccountSaleFailed (fullName : Str) (buyer : AccountId)
  /-- The token is `none` where the source writes an empty text. -/
  | subAccountSaleBlocked (fullName : Str) (token : Option AccountId) (reason : BlockReason)
deriving DecidableEq

/-! ## Texts -/

def AccountId.text (a : AccountId) : String := String.ofList a.chars

def TlaType.text : TlaType → String
  | .business => "business"
  | .open_ => "open"

def PremiumCategory.text : PremiumCategory → String
  | .legendary => "legendary"
  | .premium => "premium"
  | .standard => "standard"
  | .community => "community"

def MotherSource.text : MotherSource → String
  | .default_ => "default"
  | .explicit => "explicit"

def RefundReason.text : RefundReason → String
  | .transferFailed => "transfer_failed"
  | .creationFailed => "sub-account creation failed"

def BlockReason.text : BlockReason → String
  | .resultCountMismatch => "result_count_mismatch"
  | .balance amount => decimal amount
  | .balanceUnverifiable => "balance_unverifiable"
  | .balanceQueryFailed => "balance_query_failed"
  | .balanceQueryUnverifiable => "balance_query_unverifiable"
  | .invalidSubAccountId => "invalid_sub_account_id"

/-- `cap_str` of `set_business_sub_cap`. -/
def capText (cap : Option UInt32) : String :=
  match cap with
  | some value => decimal value.toNat
  | none => "default"

namespace Event

def name : Event → String
  | contractPaused _ => "contract_paused"
  | contractUnpaused _ => "contract_unpaused"
  | refundPending .. => "refund_pending"
  | tlaRegistered .. => "tla_registered"
  | tlaSuspended .. => "tla_suspended"
  | tlaUnsuspended .. => "tla_unsuspended"
  | adminAdded .. => "admin_added"
  | adminRemoved .. => "admin_removed"
  | feeConfigUpdated _ => "fee_config_updated"
  | withdrawalQueued .. => "withdrawal_queued"
  | ftAllowlistAdded .. => "ft_allowlist_added"
  | ftAllowlistRemoved .. => "ft_allowlist_removed"
  | nftAllowlistAdded .. => "nft_allowlist_added"
  | nftAllowlistRemoved .. => "nft_allowlist_removed"
  | tlaActivated .. => "tla_activated"
  | tlaRenewed .. => "tla_renewed"
  | subAccountRented .. => "sub_account_rented"
  | subAccountRenewed .. => "sub_account_renewed"
  | mainWalletUpdated .. => "main_wallet_updated"
  | reclaimFinalizeBlocked .. => "reclaim_finalize_blocked"
  | subAccountReclaimed .. => "sub_account_reclaimed"
  | subAccountExported .. => "sub_account_exported"
  | motherSet .. => "mother_set"
  | motherCleared .. => "mother_cleared"
  | subAccountRetractionScheduled .. => "sub_account_retraction_scheduled"
  | subAccountRetractionCanceled .. => "sub_account_retraction_canceled"
  | businessSubCapSet .. => "business_sub_cap_set"
  | resaleUnlockRequested .. => "resale_unlock_requested"
  | resaleAbortRequested .. => "resale_abort_requested"
  | subAccountListed .. => "sub_account_listed"
  | subAccountUnlisted .. => "sub_account_unlisted"
  | offerAccepted .. => "offer_accepted"
  | offerRevoked .. => "offer_revoked"
  | subAccountSold .. => "sub_account_sold"
  | subAccountSaleFailed .. => "sub_account_sale_failed"
  | subAccountSaleBlocked .. => "sub_account_sale_blocked"

/-- A member with a text, as the structures of `events.rs` mostly have. -/
def member (key s : String) : String × Value := (key, .text s)

/-- The serialized structure, its members in the order of the source. -/
def fields : Event → Object
  | contractPaused by_ | contractUnpaused by_ | feeConfigUpdated by_ =>
    [member "by" by_.text]
  | refundPending account amount reason =>
    [member "account" account.text, member "amount_yocto" (decimal amount),
      member "reason" reason.text]
  | tlaRegistered tlaId tlaType premiumCategory licensee =>
    [member "tla_id" tlaId.text, member "tla_type" tlaType.text,
      member "premium_category" premiumCategory.text,
      ("licensee", licensee.elim .null fun a => .text a.text)]
  | tlaSuspended tlaId by_ =>
    [member "tla_id" tlaId.text, member "action" "suspended", member "by" by_.text]
  | tlaUnsuspended tlaId by_ =>
    [member "tla_id" tlaId.text, member "action" "unsuspended", member "by" by_.text]
  | adminAdded account by_ =>
    [member "action" "added", member "account" account.text, member "by" by_.text]
  | adminRemoved account by_ =>
    [member "action" "removed", member "account" account.text, member "by" by_.text]
  | withdrawalQueued amount recipient =>
    [member "amount_yocto" (decimal amount), member "recipient" recipient.text]
  | ftAllowlistAdded token by_ | ftAllowlistRemoved token by_ =>
    [member "kind" "ft", member "token" token.text, member "by" by_.text]
  | nftAllowlistAdded token by_ | nftAllowlistRemoved token by_ =>
    [member "kind" "nft", member "token" token.text, member "by" by_.text]
  | tlaActivated tlaId expiresAt paid =>
    [member "tla_id" tlaId.text, ("expires_at", .number expiresAt),
      member "paid_yocto" (decimal paid)]
  | tlaRenewed entity newExpiresAt paid =>
    [member "entity" entity.text, ("new_expires_at", .number newExpiresAt),
      member "paid_yocto" (decimal paid)]
  | subAccountRented fullName tlaId owner rent expiresAt =>
    [member "full_name" (String.ofList fullName), member "tla_id" tlaId.text, member "owner" owner.text,
      member "rent_yocto" (decimal rent), ("expires_at", .number expiresAt)]
  | subAccountRenewed entity newExpiresAt paid =>
    [member "entity" (String.ofList entity), ("new_expires_at", .number newExpiresAt),
      member "paid_yocto" (decimal paid)]
  | mainWalletUpdated fullName newWallet =>
    [member "full_name" (String.ofList fullName), member "new_wallet" newWallet.text]
  | reclaimFinalizeBlocked fullName token reason =>
    [member "full_name" (String.ofList fullName), member "token" token.text, member "reason" reason.text]
  | subAccountReclaimed fullName tlaId sweptTo =>
    [member "full_name" (String.ofList fullName), member "tla_id" tlaId.text, member "swept_to" sweptTo.text]
  | subAccountExported fullName tlaId =>
    [member "full_name" (String.ofList fullName), member "tla_id" tlaId.text]
  | motherSet user mother source =>
    [member "user" user.text, member "mother" mother.text, member "source" source.text]
  | motherCleared user previousMother by_ =>
    [member "user" user.text, member "previous_mother" previousMother.text,
      member "by" by_.text]
  | subAccountRetractionScheduled fullName retractionAt by_ =>
    [member "full_name" (String.ofList fullName), ("retraction_at", .number retractionAt),
      member "by" by_.text]
  | subAccountRetractionCanceled fullName by_ =>
    [member "full_name" (String.ofList fullName), member "by" by_.text]
  | businessSubCapSet tlaId cap by_ =>
    [member "tla_id" tlaId.text, member "cap" (capText cap), member "by" by_.text]
  | resaleUnlockRequested account by_ | resaleAbortRequested account by_ =>
    [member "account" account.text, member "by" by_.text]
  | subAccountListed fullName price seller =>
    [member "full_name" (String.ofList fullName), member "price_yocto" (decimal price),
      member "seller" seller.text]
  | subAccountUnlisted fullName by_ | offerRevoked fullName by_ =>
    [member "full_name" (String.ofList fullName), member "by" by_.text]
  | offerAccepted fullName buyer price seller =>
    [member "full_name" (String.ofList fullName), member "buyer" buyer.text,
      member "price_yocto" (decimal price), member "seller" seller.text]
  | subAccountSold fullName tlaId seller buyer price commission sellerProceeds =>
    [member "full_name" (String.ofList fullName), member "tla_id" tlaId.text, member "seller" seller.text,
      member "buyer" buyer.text, member "price_yocto" (decimal price),
      member "commission_yocto" (decimal commission),
      member "seller_proceeds_yocto" (decimal sellerProceeds)]
  | subAccountSaleFailed fullName buyer =>
    [member "full_name" (String.ofList fullName), member "buyer" buyer.text]
  | subAccountSaleBlocked fullName token reason =>
    [member "full_name" (String.ofList fullName), member "token" (token.elim "" AccountId.text),
      member "reason" reason.text]

/-- What every line starts with, up to the name of the event. -/
def lineStart : Str :=
  "EVENT_JSON:\x7b\"standard\":\"hos-tla\",\"version\":\"1.0.0\",\"event\":\"".toList

/-- The log line of `emit`. -/
def line (e : Event) : Str :=
  lineStart ++ e.name.toList ++ "\",\"data\":".toList ++ writeObject e.fields ++ "\x7d".toList

end Event

/-! ## Emission -/

/-- `mother_set` of `ensure_mother_default`. -/
def TlaRegistry.motherDefaultEvents (r : TlaRegistry) (user : AccountId) : List Event :=
  if r.mothers.containsKey user then [] else [.motherSet user user .default_]

/-- The events of a call that is accepted. Where the source writes the owner of an entry, the
call is accepted only if the caller is that owner. -/
def Op.events (env : Env) (r : TlaRegistry) : Op → List Event
  | pause => [.contractPaused env.predecessor]
  | unpause => [.contractUnpaused env.predecessor]
  | registerTla tlaId tlaType premiumCategory licensee =>
    [.tlaRegistered tlaId tlaType premiumCategory licensee]
  | suspendTla tlaId => [.tlaSuspended tlaId env.predecessor]
  | unsuspendTla tlaId => [.tlaUnsuspended tlaId env.predecessor]
  | addAdmin accountId =>
    if accountId ∈ r.admins then [] else [.adminAdded accountId env.predecessor]
  | removeAdmin accountId => [.adminRemoved accountId env.predecessor]
  | updateFeeConfig _ => [.feeConfigUpdated env.predecessor]
  | withdraw amount recipient => [.withdrawalQueued amount recipient]
  | addFtAllowlist token =>
    if token ∈ r.ftAllowlist then [] else [.ftAllowlistAdded token env.predecessor]
  | removeFtAllowlist token =>
    if token ∈ r.ftAllowlist then [.ftAllowlistRemoved token env.predecessor] else []
  | addNftAllowlist token =>
    if token ∈ r.nftAllowlist then [] else [.nftAllowlistAdded token env.predecessor]
  | removeNftAllowlist token =>
    if token ∈ r.nftAllowlist then [.nftAllowlistRemoved token env.predecessor] else []
  | activateOpenTla tlaId =>
    [.tlaActivated tlaId (satAdd u64Max env.blockTimestamp oneYearNs) 0]
  | setMother newMother =>
    if r.mothers.get env.predecessor = some newMother then []
    else [.motherSet env.predecessor newMother .explicit]
  | adminClearMother user =>
    (r.mothers.get user).elim [] fun previous => [.motherCleared user previous env.predecessor]
  | scheduleRetraction tlaId name =>
    [.subAccountRetractionScheduled (subAccountKey tlaId name) env.blockTimestamp env.predecessor]
  | cancelRetraction tlaId name =>
    [.subAccountRetractionCanceled (subAccountKey tlaId name) env.predecessor]
  | setBusinessSubCap tlaId cap => [.businessSubCapSet tlaId cap env.predecessor]
  | activateTla tlaId =>
    [.tlaActivated tlaId (satAdd u64Max env.blockTimestamp oneYearNs)
      (satAdd u128Max r.feeConfig.tlaAllocationFee
        (baseRent (byteLen tlaId.chars % 256) r.feeConfig))]
  | rentSubAccount .. => r.motherDefaultEvents env.predecessor
  | renewTla tlaId =>
    (r.tlas.get tlaId).elim [] fun entry =>
      [.tlaRenewed tlaId (satAdd u64Max (max env.blockTimestamp entry.expiresAt) oneYearNs)
        (baseRent (byteLen tlaId.chars % 256) r.feeConfig)]
  | setMainWallet tlaId name newWallet =>
    [.mainWalletUpdated (subAccountKey tlaId name) newWallet]
  | renewSubAccount tlaId name =>
    (r.subAccounts.get (subAccountKey tlaId name)).elim [] fun sub =>
      (r.tlas.get tlaId).elim [] fun tla =>
        [.subAccountRenewed (subAccountKey tlaId name)
          (satAdd u64Max (max env.blockTimestamp sub.expiresAt) oneYearNs)
          (calculateRent tla tlaId name r.feeConfig)]
  | listSubAccount tlaId name price =>
    [.subAccountListed (subAccountKey tlaId name) price env.predecessor]
  | unlistSubAccount tlaId name => [.subAccountUnlisted (subAccountKey tlaId name) env.predecessor]
  | acceptOffer tlaId name buyer price =>
    [.offerAccepted (subAccountKey tlaId name) buyer price env.predecessor]
  | revokeOffer tlaId name => [.offerRevoked (subAccountKey tlaId name) env.predecessor]
  | resaleUnlock account _ => [.resaleUnlockRequested account env.predecessor]
  | resaleAbort account => [.resaleAbortRequested account env.predecessor]
  | claimRefund | migrate => []
  | reclaimSweepFt .. | reclaimFinalize .. | exportSubAccount .. | buySubAccount .. => []

/-- The events of a call that is rejected with this error. A failed receipt keeps its log, and
a rental has set the default mother when it finds its TLA full. -/
def Op.failedEvents (env : Env) (r : TlaRegistry) (e : ContractError) : Op → List Event
  | rentSubAccount .. =>
    match e with
    | .maxBusinessSubsReached => r.motherDefaultEvents env.predecessor
    | _ => []
  | _ => []

namespace TlaRegistry

def createdEvents (r : TlaRegistry) (promiseOk : Bool) (p : PendingRent) : List Event :=
  if promiseOk then
    (r.subAccounts.get p.key).elim [] fun sub =>
      [.subAccountRented p.key p.tlaId p.payer p.rent sub.expiresAt]
  else [.refundPending p.payer p.attached .creationFailed]

/-- The events of `on_balances_checked`. -/
def balancesCheckedEvents (key : Str) (results : List PromiseResult)
    (allowlist : List AccountId) : List Event :=
  match reclaimBlockReason results allowlist with
  | .ok (some (token, reason)) => [.reclaimFinalizeBlocked key token reason]
  | _ => []

/-- The events of `on_buy_balances_checked`. -/
def buyBalancesCheckedEvents (key : Str) (results : List PromiseResult)
    (allowlist : List AccountId) : List Event :=
  match saleBlockReason results allowlist with
  | some (token, reason) => [.subAccountSaleBlocked key token reason]
  | none =>
    match AccountId.parse key with
    | some _ => []
    | none => [.subAccountSaleBlocked key none .invalidSubAccountId]

def soldEvents (r : TlaRegistry) (promiseOk : Bool) (b : PendingBuy) : List Event :=
  if promiseOk then
    (r.subAccounts.get b.key).elim [] fun sub =>
      [.subAccountSold b.key b.tlaId sub.owner b.buyer b.price (r.resaleCommission b.price)
        (b.price - r.resaleCommission b.price)]
  else [.subAccountSaleFailed b.key b.buyer]

end TlaRegistry

end HosTla
