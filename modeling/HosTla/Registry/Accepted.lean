-- SUMMARY: What an accepted call checked and what it did, one constructor for each method.
import HosTla.Foundation.PullLedger
import HosTla.Registry.Op

/-!
# Accepted calls

`Accepted env r op o` says that the registry in state `r` takes the call `op`
with outcome `o`. A constructor lists the checks its method made and shows the
new state as an update of `r`, so that whatever is not named there is kept.
-/

namespace HosTla

open Foundation

/-! ## The ledger of refunds -/

def TlaRegistry.ledger (r : TlaRegistry) : PullLedger AccountId :=
  ⟨r.pendingRefunds, r.totalPendingRefunds⟩

/-- The credit of `refundExcess`. -/
def excessCredit (account : AccountId) (excess : ℕ) : List (AccountId × ℕ) :=
  if 0 < excess then [(account, excess)] else []

theorem Outcome.refundExcess_of (r : TlaRegistry) (account : AccountId) (excess : ℕ) :
    (Outcome.of r).refundExcess account excess =
      ⟨{ r with
          pendingRefunds := (r.ledger.creditAll u128Max (excessCredit account excess)).pending
          totalPendingRefunds := (r.ledger.creditAll u128Max (excessCredit account excess)).total },
        none, excessCredit account excess⟩ := by
  unfold Outcome.refundExcess excessCredit
  split <;> rfl

/-! ## Reading the shared checks -/

namespace TlaRegistry

@[simp] theorem assertAdmin_eq_ok {r : TlaRegistry} {env : Env} {u : Unit} :
    r.assertAdmin env = .ok u ↔ env.predecessor ∈ r.admins := by
  simp [assertAdmin]

@[simp] theorem assertNotPaused_eq_ok {r : TlaRegistry} {u : Unit} :
    r.assertNotPaused = .ok u ↔ r.paused = false := by
  simp [assertNotPaused]

@[simp] theorem assertNotMother_eq_ok {r : TlaRegistry} {a : AccountId} {u : Unit} :
    r.assertNotMother a = .ok u ↔ r.getMotherUseCount a = 0 := by
  simp [assertNotMother]

@[simp] theorem assertSaleIdle_eq_ok {r : TlaRegistry} {key : Str} {u : Unit} :
    r.assertSaleIdle key = .ok u ↔
      (∀ l, r.listings.get key = some l → l.settling = false) ∧
        ∀ o, r.acceptedOffers.get key = some o → o.settling = false := by
  simp only [assertSaleIdle, bind_eq_ok, rejectIf_eq_ok]
  cases r.listings.get key <;> cases r.acceptedOffers.get key <;> simp

theorem assertSellable_eq_ok {r : TlaRegistry} {env : Env} {key : Str} {tlaId owner : AccountId} :
    r.assertSellable env key tlaId = .ok owner ↔
      ∃ a sub tla, a.chars = key ∧ r.getMotherUseCount a = 0 ∧
        r.subAccounts.get key = some sub ∧ sub.retractionAt = none ∧
        r.tlas.get tlaId = some tla ∧ tla.status = .active ∧
        effectiveSubLifecycle sub tla r.feeConfig.retractionNoticeNs env.blockTimestamp = .active ∧
        owner = sub.owner := by
  simp only [assertSellable, bind_eq_ok, okOr_eq_ok, assertNotMother_eq_ok, rejectIf_eq_ok,
    pure_eq_ok, AccountId.parse_eq_some, not_not]
  constructor
  · rintro ⟨a, ha, -, hcount, sub, hsub, -, hret, tla, htla, -, hstatus, -, hlife, howner⟩
    exact ⟨a, sub, tla, ha, hcount, hsub, hret, htla, hstatus, hlife, howner⟩
  · rintro ⟨a, sub, tla, ha, hcount, hsub, hret, htla, hstatus, hlife, howner⟩
    exact ⟨a, ha, (), hcount, sub, hsub, (), hret, tla, htla, (), hstatus, (), hlife, howner⟩

@[simp] theorem subAccountOwner_eq_ok {r : TlaRegistry} {key : Str} {owner : AccountId} :
    r.subAccountOwner key = .ok owner ↔
      ∃ sub, r.subAccounts.get key = some sub ∧ owner = sub.owner := by
  simp [subAccountOwner]

theorem reclaimDestination_eq_ok {r : TlaRegistry} {env : Env} {tlaId d : AccountId} {key : Str} :
    r.reclaimDestination env tlaId key = .ok d ↔
      ∃ sub tla, r.subAccounts.get key = some sub ∧ r.tlas.get tlaId = some tla ∧
        effectiveSubLifecycle sub tla r.feeConfig.retractionNoticeNs env.blockTimestamp
          = .reclaimable ∧ d = sub.mainWallet := by
  simp [reclaimDestination]

/-- A new mother that is managed belongs to the user and is not reclaimable. -/
theorem owner_of_assertMotherAllowed {r : TlaRegistry} {env : Env} {user m : AccountId}
    {sub : SubAccountEntry} (h : r.assertMotherAllowed env user m = .ok ())
    (hsub : r.subAccounts.get m.chars = some sub) : sub.owner = user := by
  simp only [assertMotherAllowed, hsub, bind_eq_ok, rejectIf_eq_ok, not_not] at h
  obtain ⟨-, howner, -⟩ := h
  exact howner

/-! ## Helpers as updates -/

theorem ensureMotherDefault_eq (r : TlaRegistry) (user : AccountId) :
    r.ensureMotherDefault user = { r with
      mothers := (r.ensureMotherDefault user).mothers
      motherUseCount := (r.ensureMotherDefault user).motherUseCount } := by
  unfold ensureMotherDefault
  split
  · rfl
  · dsimp only; split <;> rfl

theorem replaceMother_eq (r : TlaRegistry) (user m : AccountId) :
    r.replaceMother user m = { r with
      mothers := (r.replaceMother user m).mothers
      motherUseCount := (r.replaceMother user m).motherUseCount } := by
  unfold replaceMother
  split
  · dsimp only; split
    · rfl
    · split <;> rfl
  · dsimp only; split <;> rfl

end TlaRegistry

/-! ## The calls -/

/-- The methods that write configuration no other method of this list writes. -/
def Op.configures : Op → Bool
  | .pause | .unpause | .migrate | .addAdmin _ | .removeAdmin _ => true
  | .addFtAllowlist _ | .removeFtAllowlist _ => true
  | .addNftAllowlist _ | .removeNftAllowlist _ | .setBusinessSubCap .. => true
  | _ => false

def Op.isResale : Op → Bool
  | .resaleUnlock .. | .resaleAbort _ => true
  | _ => false

def Promise.isResale : Promise → Bool
  | .resaleUnlock .. | .resaleAbort _ => true
  | _ => false

/-- What `resolve_and_lock_sale` locks: the offer bound to the buyer, or else the listing. -/
inductive Locked (r : TlaRegistry) (key : Str) (buyer : AccountId) (deposit : ℕ) :
    LookupMap Str Listing → LookupMap Str AcceptedOffer → ℕ → Prop
  | offer {offer : AcceptedOffer} (hoffer : r.acceptedOffers.get key = some offer)
      (hbuyer : offer.buyer = buyer) (hpaid : offer.price ≤ deposit) :
      Locked r key buyer deposit r.listings
        (r.acceptedOffers.insert key { offer with settling := true }) offer.price
  | listing {listing : Listing}
      (hother : ∀ o, r.acceptedOffers.get key = some o → o.buyer ≠ buyer)
      (hlisting : r.listings.get key = some listing) (hpaid : listing.price ≤ deposit) :
      Locked r key buyer deposit
        (r.listings.insert key { listing with settling := true }) r.acceptedOffers listing.price

inductive Accepted (env : Env) (r : TlaRegistry) : Op → Outcome → Prop
  | configured {op : Op} {admins ft nft : IterableSet AccountId} {paused : Bool} {version : ℕ}
      {caps : LookupMap AccountId UInt32}
      (hop : op.configures = true) (hadmin : env.predecessor ∈ r.admins) :
      Accepted env r op (.of { r with
        admins, paused, version
        ftAllowlist := ft
        nftAllowlist := nft
        businessSubCapOverride := caps })
  | resale {op : Op} {p : Promise} (hop : op.isResale = true) (hp : p.isResale = true)
      (hadmin : env.predecessor ∈ r.admins) :
      Accepted env r op (.withPromise r p)
  | claimRefund
      (hpos : r.getPendingRefund env.predecessor ≠ 0)
      (havail : r.getPendingRefund env.predecessor ≤ env.availableBalance) :
      Accepted env r .claimRefund (.withPromise
        { r with
          pendingRefunds := r.pendingRefunds.remove env.predecessor
          totalPendingRefunds :=
            r.totalPendingRefunds - r.getPendingRefund env.predecessor }
        (.transferRefund env.predecessor (r.getPendingRefund env.predecessor)))
  | registerTla {tlaId : AccountId} {tlaType : TlaType} {category : PremiumCategory}
      {licensee : Option AccountId}
      (hadmin : env.predecessor ∈ r.admins) (hnew : r.tlas.get tlaId = none)
      (hlicensee : ¬ (tlaType = .business ∧ licensee = none)) :
      Accepted env r (.registerTla tlaId tlaType category licensee) (.of { r with
        tlas := r.tlas.insert tlaId {
          tlaType, status := .registered, licensee, premiumCategory := category
          activatedAt := 0, expiresAt := 0 } })
  | suspendTla {tlaId : AccountId} {tla : TlaEntry}
      (hadmin : env.predecessor ∈ r.admins) (htla : r.tlas.get tlaId = some tla) :
      Accepted env r (.suspendTla tlaId) (.of { r with
        tlas := r.tlas.insert tlaId { tla with status := .suspended } })
  | unsuspendTla {tlaId : AccountId} {tla : TlaEntry}
      (hadmin : env.predecessor ∈ r.admins) (htla : r.tlas.get tlaId = some tla)
      (hstatus : tla.status = .suspended)
      (hlicensee : ¬ (tla.tlaType = .business ∧ tla.licensee = none)) :
      Accepted env r (.unsuspendTla tlaId) (.of { r with
        tlas := r.tlas.insert tlaId { tla with status := .active } })
  | updateFeeConfig {config : FeeConfig}
      (hadmin : env.predecessor ∈ r.admins)
      (hdeposit : config.accountCreationDeposit ≠ 0)
      (hrate : config.resaleCommissionBps ≤ 10000) :
      Accepted env r (.updateFeeConfig config) (.of { r with feeConfig := config })
  | withdraw {amount : ℕ} {recipient : AccountId}
      (hadmin : env.predecessor ∈ r.admins) (hpos : amount ≠ 0)
      (hrevenue : amount ≤ r.totalRevenue)
      (havail : satAdd u128Max r.totalPendingRefunds amount ≤ env.availableBalance) :
      Accepted env r (.withdraw amount recipient)
        ⟨{ r with
            totalRevenue := r.totalRevenue - amount
            pendingRefunds := (r.ledger.creditAll u128Max [(recipient, amount)]).pending
            totalPendingRefunds := (r.ledger.creditAll u128Max [(recipient, amount)]).total },
          none, [(recipient, amount)]⟩
  | activateOpenTla {tlaId : AccountId} {tla : TlaEntry}
      (hadmin : env.predecessor ∈ r.admins) (htla : r.tlas.get tlaId = some tla)
      (hstatus : tla.status = .registered) (htype : tla.tlaType = .open_) :
      Accepted env r (.activateOpenTla tlaId) (.of { r with
        tlas := r.tlas.insert tlaId { tla with
          status := .active
          activatedAt := env.blockTimestamp
          expiresAt := satAdd u64Max env.blockTimestamp oneYearNs } })
  | setMother {newMother : AccountId}
      (hdeposit : env.attachedDeposit = 1) (hpaused : r.paused = false)
      (hallowed : r.assertMotherAllowed env env.predecessor newMother = .ok ()) :
      Accepted env r (.setMother newMother) (.of { r with
        mothers := (r.replaceMother env.predecessor newMother).mothers
        motherUseCount := (r.replaceMother env.predecessor newMother).motherUseCount })
  | adminClearMother {user previous : AccountId}
      (hadmin : env.predecessor ∈ r.admins) (hmother : r.mothers.get user = some previous) :
      Accepted env r (.adminClearMother user) (.of { r with
        mothers := r.mothers.remove user
        motherUseCount := (r.decrementMotherUse previous).motherUseCount })
  | scheduleRetraction {tlaId : AccountId} {name : Str} {tla : TlaEntry} {sub : SubAccountEntry}
      (hdeposit : env.attachedDeposit = 1) (hpaused : r.paused = false)
      (htla : r.tlas.get tlaId = some tla) (htype : tla.tlaType = .business)
      (hsub : r.subAccounts.get (subAccountKey tlaId name) = some sub)
      (howner : env.predecessor = sub.owner) (hret : sub.retractionAt = none) :
      Accepted env r (.scheduleRetraction tlaId name) (.of { r with
        subAccounts := r.subAccounts.insert (subAccountKey tlaId name) { sub with
          retractionAt := some env.blockTimestamp } })
  | cancelRetraction {tlaId : AccountId} {name : Str} {sub : SubAccountEntry} {retractionAt : ℕ}
      (hdeposit : env.attachedDeposit = 1) (hpaused : r.paused = false)
      (hsub : r.subAccounts.get (subAccountKey tlaId name) = some sub)
      (howner : env.predecessor = sub.owner) (hret : sub.retractionAt = some retractionAt)
      (htime : env.blockTimestamp < satAdd u64Max retractionAt r.feeConfig.retractionNoticeNs) :
      Accepted env r (.cancelRetraction tlaId name) (.of { r with
        subAccounts := r.subAccounts.insert (subAccountKey tlaId name) { sub with
          retractionAt := none } })
  | activateTla {tlaId : AccountId} {tla : TlaEntry} {required : ℕ}
      (hpaused : r.paused = false)
      (hrequired : required = satAdd u128Max r.feeConfig.tlaAllocationFee
        (baseRent (byteLen tlaId.chars % 256) r.feeConfig))
      (hpaid : required ≤ env.attachedDeposit)
      (htla : r.tlas.get tlaId = some tla) (hstatus : tla.status = .registered)
      (htype : tla.tlaType = .business) (hcaller : tla.licensee = some env.predecessor) :
      Accepted env r (.activateTla tlaId)
        ⟨{ r with
            tlas := r.tlas.insert tlaId { tla with
              status := .active
              activatedAt := env.blockTimestamp
              expiresAt := satAdd u64Max env.blockTimestamp oneYearNs }
            totalRevenue := satAdd u128Max r.totalRevenue required
            pendingRefunds := (r.ledger.creditAll u128Max
              (excessCredit env.predecessor (env.attachedDeposit - required))).pending
            totalPendingRefunds := (r.ledger.creditAll u128Max
              (excessCredit env.predecessor (env.attachedDeposit - required))).total },
          none, excessCredit env.predecessor (env.attachedDeposit - required)⟩
  | rentSubAccount {tlaId : AccountId} {name : Str} {ownerKey : PublicKey}
      {mainWallet : AccountId} {tla : TlaEntry} {rent : ℕ}
      (hpaused : r.paused = false) (hname : nameInvalidReason name = none)
      (hfree : r.subAccounts.get (subAccountKey tlaId name) = none)
      (hwallet : mainWallet.chars ≠ subAccountKey tlaId name)
      (htla : r.tlas.get tlaId = some tla)
      (haccepting : tla.isAcceptingRentals env.blockTimestamp = true)
      (hlicensee : TlaRegistry.assertLicensee tla env.predecessor = .ok ())
      (hrent : rent = calculateRent tla tlaId name r.feeConfig)
      (hpaid : satAdd u128Max rent r.feeConfig.accountCreationDeposit ≤ env.attachedDeposit)
      (hcap : tla.tlaType = .business → r.getBusinessSubCount tlaId < r.effectiveBusinessCap tlaId) :
      Accepted env r (.rentSubAccount tlaId name ownerKey mainWallet) (.withPromise
        { r with
          mothers := (r.ensureMotherDefault env.predecessor).mothers
          motherUseCount := (r.ensureMotherDefault env.predecessor).motherUseCount
          businessSubCount :=
            if tla.tlaType = .business then
              r.businessSubCount.insert tlaId
                (satAdd u32Max (r.getBusinessSubCount tlaId) 1)
            else r.businessSubCount
          subAccounts := r.subAccounts.insert (subAccountKey tlaId name) {
            owner := env.predecessor, tlaId, mainWallet
            rentedAt := env.blockTimestamp
            expiresAt := satAdd u64Max env.blockTimestamp oneYearNs
            retractionAt := none } }
        (.createSubAccount {
          tlaId, name, ownerKey
          creationDeposit := r.feeConfig.accountCreationDeposit
          payer := env.predecessor, rent
          attached := env.attachedDeposit }))
  | renewTla {tlaId : AccountId} {tla : TlaEntry} {rent : ℕ}
      (hpaused : r.paused = false)
      (hrent : rent = baseRent (byteLen tlaId.chars % 256) r.feeConfig)
      (htla : r.tlas.get tlaId = some tla) (hstatus : tla.status = .active)
      (htime : env.blockTimestamp < satAdd u64Max tla.expiresAt gracePeriodNs)
      (hlicensee : TlaRegistry.assertLicensee tla env.predecessor = .ok ())
      (hadmin : r.assertAdminUnlessBusiness env tla = .ok ())
      (hpaid : rent ≤ env.attachedDeposit) :
      Accepted env r (.renewTla tlaId)
        ⟨{ r with
            tlas := r.tlas.insert tlaId { tla with
              expiresAt := satAdd u64Max (max env.blockTimestamp tla.expiresAt) oneYearNs }
            totalRevenue := satAdd u128Max r.totalRevenue rent
            pendingRefunds := (r.ledger.creditAll u128Max
              (excessCredit env.predecessor (env.attachedDeposit - rent))).pending
            totalPendingRefunds := (r.ledger.creditAll u128Max
              (excessCredit env.predecessor (env.attachedDeposit - rent))).total },
          none, excessCredit env.predecessor (env.attachedDeposit - rent)⟩
  | setMainWallet {tlaId newWallet : AccountId} {name : Str} {sub : SubAccountEntry}
      (hdeposit : env.attachedDeposit = 1) (hpaused : r.paused = false)
      (hwallet : newWallet.chars ≠ subAccountKey tlaId name)
      (hsub : r.subAccounts.get (subAccountKey tlaId name) = some sub)
      (howner : env.predecessor = sub.owner) :
      Accepted env r (.setMainWallet tlaId name newWallet) (.of { r with
        subAccounts := r.subAccounts.insert (subAccountKey tlaId name) { sub with
          mainWallet := newWallet } })
  | renewSubAccount {tlaId : AccountId} {name : Str} {sub : SubAccountEntry} {tla : TlaEntry}
      {rent : ℕ}
      (hpaused : r.paused = false)
      (hsub : r.subAccounts.get (subAccountKey tlaId name) = some sub)
      (htime : env.blockTimestamp < satAdd u64Max sub.expiresAt gracePeriodNs)
      (howner : env.predecessor = sub.owner) (hret : sub.retractionAt = none)
      (htla : r.tlas.get tlaId = some tla)
      (hlife : tla.lifecycle env.blockTimestamp ≠ .reclaimable)
      (hrent : rent = calculateRent tla tlaId name r.feeConfig)
      (hpaid : rent ≤ env.attachedDeposit) :
      Accepted env r (.renewSubAccount tlaId name)
        ⟨{ r with
            subAccounts := r.subAccounts.insert (subAccountKey tlaId name) { sub with
              expiresAt := satAdd u64Max (max env.blockTimestamp sub.expiresAt) oneYearNs }
            totalRevenue := satAdd u128Max r.totalRevenue rent
            pendingRefunds := (r.ledger.creditAll u128Max
              (excessCredit env.predecessor (env.attachedDeposit - rent))).pending
            totalPendingRefunds := (r.ledger.creditAll u128Max
              (excessCredit env.predecessor (env.attachedDeposit - rent))).total },
          none, excessCredit env.predecessor (env.attachedDeposit - rent)⟩
  | reclaimSweepFt {tlaId ft subAccount destination : AccountId} {name : Str}
      (hpaused : r.paused = false) (hft : ft ∈ r.ftAllowlist)
      (haccount : subAccount.chars = subAccountKey tlaId name)
      (hmother : r.getMotherUseCount subAccount = 0)
      (hdest : r.reclaimDestination env tlaId (subAccountKey tlaId name) = .ok destination) :
      Accepted env r (.reclaimSweepFt tlaId name ft)
        (.withPromise r (.sweepFt subAccount ft destination))
  | reclaimFinalize {tlaId subAccount destination : AccountId} {name : Str}
      (hpaused : r.paused = false)
      (haccount : subAccount.chars = subAccountKey tlaId name)
      (hmother : r.getMotherUseCount subAccount = 0)
      (hdest : r.reclaimDestination env tlaId (subAccountKey tlaId name) = .ok destination) :
      Accepted env r (.reclaimFinalize tlaId name) (.withPromise r
        (if r.ftAllowlist.elems = [] then .finalizeDelete subAccount { tlaId, name, destination }
          else .checkBalances subAccount { tlaId, name, destination } r.ftAllowlist.elems))
  | exportSubAccount {tlaId subAccount : AccountId} {name : Str} {sub : SubAccountEntry}
      (hadmin : env.predecessor ∈ r.admins)
      (hsub : r.subAccounts.get (subAccountKey tlaId name) = some sub)
      (haccount : subAccount.chars = subAccountKey tlaId name)
      (hmother : r.getMotherUseCount subAccount = 0) :
      Accepted env r (.exportSubAccount tlaId name)
        (.withPromise r (.exportSubAccount subAccount tlaId name))
  | listSubAccount {tlaId : AccountId} {name : Str} {price : ℕ}
      (hdeposit : env.attachedDeposit = 1) (hpaused : r.paused = false) (hprice : price ≠ 0)
      (hidle : r.assertSaleIdle (subAccountKey tlaId name) = .ok ())
      (hsell : r.assertSellable env (subAccountKey tlaId name) tlaId = .ok env.predecessor) :
      Accepted env r (.listSubAccount tlaId name price) (.of { r with
        listings := r.listings.insert (subAccountKey tlaId name) { price, settling := false } })
  | unlistSubAccount {tlaId : AccountId} {name : Str} {listing : Listing}
      (hdeposit : env.attachedDeposit = 1) (hpaused : r.paused = false)
      (hidle : r.assertSaleIdle (subAccountKey tlaId name) = .ok ())
      (hlisting : r.listings.get (subAccountKey tlaId name) = some listing)
      (howner : r.subAccountOwner (subAccountKey tlaId name) = .ok env.predecessor) :
      Accepted env r (.unlistSubAccount tlaId name) (.of { r with
        listings := r.listings.remove (subAccountKey tlaId name) })
  | acceptOffer {tlaId buyer : AccountId} {name : Str} {price : ℕ}
      (hdeposit : env.attachedDeposit = 1) (hpaused : r.paused = false) (hprice : price ≠ 0)
      (hidle : r.assertSaleIdle (subAccountKey tlaId name) = .ok ())
      (hsell : r.assertSellable env (subAccountKey tlaId name) tlaId = .ok env.predecessor) :
      Accepted env r (.acceptOffer tlaId name buyer price) (.of { r with
        acceptedOffers := r.acceptedOffers.insert (subAccountKey tlaId name) {
          buyer, price, settling := false } })
  | revokeOffer {tlaId : AccountId} {name : Str} {offer : AcceptedOffer}
      (hdeposit : env.attachedDeposit = 1) (hpaused : r.paused = false)
      (hidle : r.assertSaleIdle (subAccountKey tlaId name) = .ok ())
      (hoffer : r.acceptedOffers.get (subAccountKey tlaId name) = some offer)
      (howner : r.subAccountOwner (subAccountKey tlaId name) = .ok env.predecessor) :
      Accepted env r (.revokeOffer tlaId name) (.of { r with
        acceptedOffers := r.acceptedOffers.remove (subAccountKey tlaId name) })
  | buySubAccount {tlaId seller subAccount : AccountId} {name : Str} {newOwnerKey : PublicKey}
      {listings : LookupMap Str Listing} {acceptedOffers : LookupMap Str AcceptedOffer} {price : ℕ}
      (hpaused : r.paused = false)
      (hidle : r.assertSaleIdle (subAccountKey tlaId name) = .ok ())
      (hsell : r.assertSellable env (subAccountKey tlaId name) tlaId = .ok seller)
      (hlock : Locked r (subAccountKey tlaId name) env.predecessor env.attachedDeposit
        listings acceptedOffers price)
      (haccount : subAccount.chars = subAccountKey tlaId name) :
      Accepted env r (.buySubAccount tlaId name newOwnerKey) (.withPromise
        { r with listings, acceptedOffers }
        (if r.ftAllowlist.elems = [] then
          .settleTransfer subAccount { tlaId, name, newOwnerKey, price
                                       buyer := env.predecessor, deposit := env.attachedDeposit }
        else
          .checkBuyBalances subAccount { tlaId, name, newOwnerKey, price
                                         buyer := env.predecessor, deposit := env.attachedDeposit }
            r.ftAllowlist.elems))

/-! ## Acceptance by method -/

section

variable {env : Env} {r : TlaRegistry} {o : Outcome}

theorem accepted_of_claimRefund (h : r.claimRefund env = .ok o) :
    Accepted env r .claimRefund o := by
  simp only [TlaRegistry.claimRefund, bind_eq_ok, rejectIf_eq_ok, pure_eq_ok, not_lt] at h
  obtain ⟨-, hpos, -, havail, rfl⟩ := h
  exact .claimRefund hpos havail

theorem accepted_of_registerTla {tlaId : AccountId} {tlaType : TlaType}
    {category : PremiumCategory} {licensee : Option AccountId}
    (h : r.registerTla env tlaId tlaType category licensee = .ok o) :
    Accepted env r (.registerTla tlaId tlaType category licensee) o := by
  simp only [TlaRegistry.registerTla, bind_eq_ok, rejectIf_eq_ok, pure_eq_ok, Bool.not_eq_true,
    TlaRegistry.assertAdmin_eq_ok] at h
  obtain ⟨-, hadmin, -, hnew, -, hlicensee, rfl⟩ := h
  exact .registerTla hadmin (LookupMap.containsKey_eq_false.mp hnew) hlicensee

theorem accepted_of_suspendTla {tlaId : AccountId} (h : r.suspendTla env tlaId = .ok o) :
    Accepted env r (.suspendTla tlaId) o := by
  simp only [TlaRegistry.suspendTla, bind_eq_ok, okOr_eq_ok, pure_eq_ok,
    TlaRegistry.assertAdmin_eq_ok] at h
  obtain ⟨-, hadmin, tla, htla, rfl⟩ := h
  exact .suspendTla hadmin htla

theorem accepted_of_unsuspendTla {tlaId : AccountId} (h : r.unsuspendTla env tlaId = .ok o) :
    Accepted env r (.unsuspendTla tlaId) o := by
  simp only [TlaRegistry.unsuspendTla, bind_eq_ok, okOr_eq_ok, rejectIf_eq_ok, pure_eq_ok, not_not,
    TlaRegistry.assertAdmin_eq_ok] at h
  obtain ⟨-, hadmin, tla, htla, -, hstatus, -, hlicensee, rfl⟩ := h
  exact .unsuspendTla hadmin htla hstatus hlicensee

theorem accepted_of_activateOpenTla {tlaId : AccountId} (h : r.activateOpenTla env tlaId = .ok o) :
    Accepted env r (.activateOpenTla tlaId) o := by
  simp only [TlaRegistry.activateOpenTla, bind_eq_ok, okOr_eq_ok, rejectIf_eq_ok, pure_eq_ok,
    not_not, TlaRegistry.assertAdmin_eq_ok] at h
  obtain ⟨-, hadmin, tla, htla, -, hstatus, -, htype, rfl⟩ := h
  exact .activateOpenTla hadmin htla hstatus htype

theorem accepted_of_updateFeeConfig {config : FeeConfig}
    (h : r.updateFeeConfig env config = .ok o) :
    Accepted env r (.updateFeeConfig config) o := by
  simp only [TlaRegistry.updateFeeConfig, bind_eq_ok, rejectIf_eq_ok, pure_eq_ok, not_lt,
    gt_iff_lt, TlaRegistry.assertAdmin_eq_ok] at h
  obtain ⟨-, hadmin, -, -, -, hdeposit, -, hrate, rfl⟩ := h
  exact .updateFeeConfig hadmin hdeposit hrate

theorem accepted_of_withdraw {amount : ℕ} {recipient : AccountId}
    (h : r.withdraw env amount recipient = .ok o) :
    Accepted env r (.withdraw amount recipient) o := by
  simp only [TlaRegistry.withdraw, bind_eq_ok, rejectIf_eq_ok, pure_eq_ok, not_lt,
    TlaRegistry.assertAdmin_eq_ok] at h
  obtain ⟨-, hadmin, -, hpos, -, hrevenue, -, havail, rfl⟩ := h
  exact .withdraw hadmin hpos hrevenue havail

theorem accepted_of_setMother {newMother : AccountId} (h : r.setMother env newMother = .ok o) :
    Accepted env r (.setMother newMother) o := by
  simp only [TlaRegistry.setMother, assertOneYocto, bind_eq_ok, rejectIf_eq_ok, pure_eq_ok,
    not_not, TlaRegistry.assertNotPaused_eq_ok] at h
  obtain ⟨-, hdeposit, -, hpaused, u, hallowed, rfl⟩ := h
  rw [TlaRegistry.replaceMother_eq]
  exact .setMother hdeposit hpaused hallowed

theorem accepted_of_adminClearMother {user : AccountId} (h : r.adminClearMother env user = .ok o) :
    Accepted env r (.adminClearMother user) o := by
  simp only [TlaRegistry.adminClearMother, bind_eq_ok, okOr_eq_ok, pure_eq_ok,
    TlaRegistry.assertAdmin_eq_ok] at h
  obtain ⟨-, hadmin, previous, hmother, rfl⟩ := h
  exact .adminClearMother hadmin hmother

theorem accepted_of_activateTla {tlaId : AccountId} (h : r.activateTla env tlaId = .ok o) :
    Accepted env r (.activateTla tlaId) o := by
  simp only [TlaRegistry.activateTla, bind_eq_ok, rejectIf_eq_ok, okOr_eq_ok, pure_eq_ok, not_lt,
    not_not, TlaRegistry.assertNotPaused_eq_ok] at h
  obtain ⟨-, hpaused, -, hpaid, tla, htla, -, hstatus, -, htype, licensee, hlicensee, -, rfl, rfl⟩
    := h
  rw [Outcome.refundExcess_of]
  exact .activateTla hpaused rfl hpaid htla hstatus htype hlicensee

theorem businessCountCheckAndBump_eq_ok {tlaId : AccountId} {r' : TlaRegistry} :
    r.businessCountCheckAndBump tlaId = .ok r' ↔
      r.getBusinessSubCount tlaId < r.effectiveBusinessCap tlaId ∧
        r' = { r with
          businessSubCount :=
            r.businessSubCount.insert tlaId (satAdd u32Max (r.getBusinessSubCount tlaId) 1) } := by
  simp [TlaRegistry.businessCountCheckAndBump]

theorem accepted_of_rentSubAccount {tlaId mainWallet : AccountId} {name : Str}
    {ownerKey : PublicKey} (h : r.rentSubAccount env tlaId name ownerKey mainWallet = .ok o) :
    Accepted env r (.rentSubAccount tlaId name ownerKey mainWallet) o := by
  simp only [TlaRegistry.rentSubAccount, bind_eq_ok, rejectIf_eq_ok, okOr_eq_ok, not_lt, not_not,
    validateName_eq_ok, TlaRegistry.assertNotPaused_eq_ok] at h
  obtain ⟨-, hpaused, -, hname, -, hfree, -, hwallet, tla, htla, -, haccepting, u, hlicensee,
    -, hpaid, h⟩ := h
  rw [Bool.not_eq_true, LookupMap.containsKey_eq_false] at hfree
  -- The business count is the only difference between the two types of TLA.
  rw [TlaRegistry.ensureMotherDefault_eq] at h
  split at h
  · rename_i htype
    simp only [bind_eq_ok, businessCountCheckAndBump_eq_ok, pure_eq_ok] at h
    obtain ⟨r', ⟨hcap, rfl⟩, rfl⟩ := h
    have haccepted : Accepted env r (.rentSubAccount tlaId name ownerKey mainWallet) _ :=
      .rentSubAccount hpaused hname hfree hwallet htla haccepting hlicensee rfl hpaid fun _ => hcap
    rwa [if_pos htype] at haccepted
  · rename_i htype
    simp only [bind_eq_ok, pure_eq_ok] at h
    obtain ⟨r', rfl, rfl⟩ := h
    have haccepted : Accepted env r (.rentSubAccount tlaId name ownerKey mainWallet) _ :=
      .rentSubAccount hpaused hname hfree hwallet htla haccepting hlicensee rfl hpaid
        fun h => absurd h htype
    rwa [if_neg htype] at haccepted

theorem accepted_of_renewTla {tlaId : AccountId} (h : r.renewTla env tlaId = .ok o) :
    Accepted env r (.renewTla tlaId) o := by
  simp only [TlaRegistry.renewTla, bind_eq_ok, rejectIf_eq_ok, okOr_eq_ok, pure_eq_ok, not_lt,
    not_le, not_not, ge_iff_le, TlaRegistry.assertNotPaused_eq_ok] at h
  obtain ⟨-, hpaused, tla, htla, -, hstatus, -, htime, u, hlicensee, u', hadmin, -, hpaid, rfl⟩
    := h
  rw [Outcome.refundExcess_of]
  exact .renewTla hpaused rfl htla hstatus htime hlicensee hadmin hpaid

theorem accepted_of_renewSubAccount {tlaId : AccountId} {name : Str}
    (h : r.renewSubAccount env tlaId name = .ok o) :
    Accepted env r (.renewSubAccount tlaId name) o := by
  simp only [TlaRegistry.renewSubAccount, bind_eq_ok, rejectIf_eq_ok, okOr_eq_ok, pure_eq_ok,
    not_lt, not_le, not_not, ge_iff_le, TlaRegistry.assertNotPaused_eq_ok] at h
  obtain ⟨-, hpaused, sub, hsub, -, htime, -, howner, -, hret, tla, htla, -, hlife, -, hpaid, rfl⟩
    := h
  rw [Outcome.refundExcess_of]
  exact .renewSubAccount hpaused hsub htime howner hret htla hlife rfl hpaid

theorem accepted_of_setMainWallet {tlaId newWallet : AccountId} {name : Str}
    (h : r.setMainWallet env tlaId name newWallet = .ok o) :
    Accepted env r (.setMainWallet tlaId name newWallet) o := by
  simp only [TlaRegistry.setMainWallet, assertOneYocto, bind_eq_ok, rejectIf_eq_ok, okOr_eq_ok,
    pure_eq_ok, not_not, TlaRegistry.assertNotPaused_eq_ok] at h
  obtain ⟨-, hdeposit, -, hpaused, -, hwallet, sub, hsub, -, howner, rfl⟩ := h
  exact .setMainWallet hdeposit hpaused hwallet hsub howner

theorem accepted_of_scheduleRetraction {tlaId : AccountId} {name : Str}
    (h : r.scheduleRetraction env tlaId name = .ok o) :
    Accepted env r (.scheduleRetraction tlaId name) o := by
  simp only [TlaRegistry.scheduleRetraction, assertOneYocto, bind_eq_ok, rejectIf_eq_ok,
    okOr_eq_ok, pure_eq_ok, not_not, TlaRegistry.assertNotPaused_eq_ok] at h
  obtain ⟨-, hdeposit, -, hpaused, tla, htla, -, htype, sub, hsub, -, howner, -, hret, rfl⟩ := h
  exact .scheduleRetraction hdeposit hpaused htla htype hsub howner hret

theorem accepted_of_cancelRetraction {tlaId : AccountId} {name : Str}
    (h : r.cancelRetraction env tlaId name = .ok o) :
    Accepted env r (.cancelRetraction tlaId name) o := by
  simp only [TlaRegistry.cancelRetraction, assertOneYocto, bind_eq_ok, rejectIf_eq_ok, okOr_eq_ok,
    pure_eq_ok, not_not, not_le, ge_iff_le, TlaRegistry.assertNotPaused_eq_ok] at h
  obtain ⟨-, hdeposit, -, hpaused, sub, hsub, -, howner, t, hret, -, htime, rfl⟩ := h
  exact .cancelRetraction hdeposit hpaused hsub howner hret htime

theorem accepted_of_reclaimSweepFt {tlaId ft : AccountId} {name : Str}
    (h : r.reclaimSweepFt env tlaId name ft = .ok o) :
    Accepted env r (.reclaimSweepFt tlaId name ft) o := by
  simp only [TlaRegistry.reclaimSweepFt, bind_eq_ok, rejectIf_eq_ok, okOr_eq_ok, pure_eq_ok,
    not_not, TlaRegistry.assertNotPaused_eq_ok, TlaRegistry.assertNotMother_eq_ok,
    AccountId.parse_eq_some] at h
  obtain ⟨-, hpaused, -, hft, a, ha, -, hmother, d, hdest, rfl⟩ := h
  exact .reclaimSweepFt hpaused hft ha hmother hdest

theorem accepted_of_reclaimFinalize {tlaId : AccountId} {name : Str}
    (h : r.reclaimFinalize env tlaId name = .ok o) :
    Accepted env r (.reclaimFinalize tlaId name) o := by
  simp only [TlaRegistry.reclaimFinalize, bind_eq_ok, okOr_eq_ok, pure_eq_ok,
    TlaRegistry.assertNotPaused_eq_ok, TlaRegistry.assertNotMother_eq_ok,
    AccountId.parse_eq_some] at h
  obtain ⟨-, hpaused, a, ha, -, hmother, d, hdest, rfl⟩ := h
  exact .reclaimFinalize hpaused ha hmother hdest

theorem accepted_of_exportSubAccount {tlaId : AccountId} {name : Str}
    (h : r.exportSubAccount env tlaId name = .ok o) :
    Accepted env r (.exportSubAccount tlaId name) o := by
  simp only [TlaRegistry.exportSubAccount, bind_eq_ok, rejectIf_eq_ok, okOr_eq_ok, pure_eq_ok,
    TlaRegistry.assertAdmin_eq_ok, TlaRegistry.assertNotMother_eq_ok,
    AccountId.parse_eq_some] at h
  obtain ⟨-, hadmin, -, hsub, a, ha, -, hmother, rfl⟩ := h
  obtain ⟨sub, hsub⟩ := Option.ne_none_iff_exists'.mp hsub
  exact .exportSubAccount hadmin hsub ha hmother

theorem accepted_of_listSubAccount {tlaId : AccountId} {name : Str} {price : ℕ}
    (h : r.listSubAccount env tlaId name price = .ok o) :
    Accepted env r (.listSubAccount tlaId name price) o := by
  simp only [TlaRegistry.listSubAccount, assertOneYocto, bind_eq_ok, rejectIf_eq_ok, pure_eq_ok,
    not_not, TlaRegistry.assertNotPaused_eq_ok] at h
  obtain ⟨-, hdeposit, -, hpaused, -, hprice, u, hidle, owner, hsell, -, rfl, rfl⟩ := h
  exact .listSubAccount hdeposit hpaused hprice hidle hsell

theorem accepted_of_unlistSubAccount {tlaId : AccountId} {name : Str}
    (h : r.unlistSubAccount env tlaId name = .ok o) :
    Accepted env r (.unlistSubAccount tlaId name) o := by
  simp only [TlaRegistry.unlistSubAccount, assertOneYocto, bind_eq_ok, rejectIf_eq_ok, pure_eq_ok,
    not_not, TlaRegistry.assertNotPaused_eq_ok, LookupMap.containsKey_eq_true] at h
  obtain ⟨-, hdeposit, -, hpaused, u, hidle, -, ⟨l, hlisting⟩, owner, howner, -, rfl, rfl⟩ := h
  exact .unlistSubAccount hdeposit hpaused hidle hlisting howner

theorem accepted_of_acceptOffer {tlaId buyer : AccountId} {name : Str} {price : ℕ}
    (h : r.acceptOffer env tlaId name buyer price = .ok o) :
    Accepted env r (.acceptOffer tlaId name buyer price) o := by
  simp only [TlaRegistry.acceptOffer, assertOneYocto, bind_eq_ok, rejectIf_eq_ok, pure_eq_ok,
    not_not, TlaRegistry.assertNotPaused_eq_ok] at h
  obtain ⟨-, hdeposit, -, hpaused, -, hprice, u, hidle, owner, hsell, -, rfl, rfl⟩ := h
  exact .acceptOffer hdeposit hpaused hprice hidle hsell

theorem accepted_of_revokeOffer {tlaId : AccountId} {name : Str}
    (h : r.revokeOffer env tlaId name = .ok o) :
    Accepted env r (.revokeOffer tlaId name) o := by
  simp only [TlaRegistry.revokeOffer, assertOneYocto, bind_eq_ok, rejectIf_eq_ok, pure_eq_ok,
    not_not, TlaRegistry.assertNotPaused_eq_ok, LookupMap.containsKey_eq_true] at h
  obtain ⟨-, hdeposit, -, hpaused, u, hidle, -, ⟨f, hoffer⟩, owner, howner, -, rfl, rfl⟩ := h
  exact .revokeOffer hdeposit hpaused hidle hoffer howner

theorem locked_of_resolveAndLockSale {key : Str} {buyer : AccountId} {deposit price : ℕ}
    {r' : TlaRegistry} (h : r.resolveAndLockSale key buyer deposit = .ok (r', price)) :
    ∃ listings acceptedOffers, r' = { r with listings, acceptedOffers } ∧
      Locked r key buyer deposit listings acceptedOffers price := by
  -- The listing counts for every buyer that no accepted offer is bound to.
  have hlist (hother : ∀ o, r.acceptedOffers.get key = some o → o.buyer ≠ buyer)
      (h : r.lockListing key deposit = .ok (r', price)) :
      ∃ listings acceptedOffers, r' = { r with listings, acceptedOffers } ∧
        Locked r key buyer deposit listings acceptedOffers price := by
    simp only [TlaRegistry.lockListing, bind_eq_ok, okOr_eq_ok, rejectIf_eq_ok, pure_eq_ok, not_lt,
      Prod.mk.injEq] at h
    obtain ⟨l, hl, -, hpaid, rfl, rfl⟩ := h
    exact ⟨_, _, rfl, .listing hother hl hpaid⟩
  unfold TlaRegistry.resolveAndLockSale at h
  cases hoffer : r.acceptedOffers.get key with
  | none =>
    rw [hoffer] at h
    exact hlist (by simp [hoffer]) h
  | some offer =>
    simp only [hoffer] at h
    split at h
    · rename_i hbuyer
      simp only [TlaRegistry.lockOffer, bind_eq_ok, rejectIf_eq_ok, pure_eq_ok, not_lt,
        Prod.mk.injEq] at h
      obtain ⟨-, hpaid, rfl, rfl⟩ := h
      exact ⟨_, _, rfl, .offer hoffer hbuyer hpaid⟩
    · rename_i hbuyer
      refine hlist ?_ h
      intro o ho
      rw [hoffer] at ho
      cases ho
      exact hbuyer

theorem accepted_of_buySubAccount {tlaId : AccountId} {name : Str} {newOwnerKey : PublicKey}
    (h : r.buySubAccount env tlaId name newOwnerKey = .ok o) :
    Accepted env r (.buySubAccount tlaId name newOwnerKey) o := by
  simp only [TlaRegistry.buySubAccount, bind_eq_ok, okOr_eq_ok, pure_eq_ok, Prod.exists,
    TlaRegistry.assertNotPaused_eq_ok, AccountId.parse_eq_some] at h
  obtain ⟨-, hpaused, u, hidle, seller, hsell, r', price, hresolve, a, ha, rfl⟩ := h
  obtain ⟨listings, acceptedOffers, rfl, hlock⟩ := locked_of_resolveAndLockSale hresolve
  exact .buySubAccount hpaused hidle hsell hlock ha

/-- A method that writes configuration writes nothing else. -/
theorem accepted_of_configures {op : Op} (hop : op.configures = true)
    (h : op.run env r = .ok o) : Accepted env r op o := by
  -- One statement for all methods, so that the cases differ in how they are taken apart only.
  have hall : env.predecessor ∈ r.admins ∧
      ∃ admins paused version ft nft caps, o = .of { r with
        admins, paused, version
        ftAllowlist := ft
        nftAllowlist := nft
        businessSubCapOverride := caps } := by
    cases op <;> cases hop
    all_goals
      simp only [Op.run, TlaRegistry.pause, TlaRegistry.unpause, TlaRegistry.migrate,
        TlaRegistry.addAdmin, TlaRegistry.removeAdmin, TlaRegistry.addFtAllowlist,
        TlaRegistry.removeFtAllowlist, TlaRegistry.addNftAllowlist,
        TlaRegistry.removeNftAllowlist, TlaRegistry.setBusinessSubCap, bind_eq_ok, okOr_eq_ok,
        rejectIf_eq_ok, pure_eq_ok, TlaRegistry.assertAdmin_eq_ok] at h
    case pause | unpause =>
      obtain ⟨-, hadmin, rfl⟩ := h
      exact ⟨hadmin, _, _, _, _, _, _, rfl⟩
    case addAdmin | removeFtAllowlist | removeNftAllowlist =>
      obtain ⟨-, hadmin, rfl⟩ := h
      exact ⟨hadmin, _, _, _, _, _, _, rfl⟩
    case migrate | removeAdmin | addFtAllowlist | addNftAllowlist =>
      obtain ⟨-, hadmin, -, -, rfl⟩ := h
      exact ⟨hadmin, _, _, _, _, _, _, rfl⟩
    case setBusinessSubCap =>
      obtain ⟨-, hadmin, -, -, -, -, rfl⟩ := h
      exact ⟨hadmin, _, _, _, _, _, _, rfl⟩
  obtain ⟨hadmin, admins, paused, version, ft, nft, caps, rfl⟩ := hall
  exact .configured hop hadmin

theorem accepted_of_isResale {op : Op} (hop : op.isResale = true) (h : op.run env r = .ok o) :
    Accepted env r op o := by
  cases op <;> cases hop
  all_goals
    simp only [Op.run, TlaRegistry.resaleUnlock, TlaRegistry.resaleAbort, bind_eq_ok, pure_eq_ok,
      TlaRegistry.assertAdmin_eq_ok] at h
    obtain ⟨-, hadmin, rfl⟩ := h
    exact .resale rfl rfl hadmin

theorem accepted_of_run {op : Op} (h : op.run env r = .ok o) : Accepted env r op o := by
  cases op with
  | claimRefund => exact accepted_of_claimRefund h
  | registerTla => exact accepted_of_registerTla h
  | suspendTla => exact accepted_of_suspendTla h
  | unsuspendTla => exact accepted_of_unsuspendTla h
  | updateFeeConfig => exact accepted_of_updateFeeConfig h
  | withdraw => exact accepted_of_withdraw h
  | activateOpenTla => exact accepted_of_activateOpenTla h
  | setMother => exact accepted_of_setMother h
  | adminClearMother => exact accepted_of_adminClearMother h
  | scheduleRetraction => exact accepted_of_scheduleRetraction h
  | cancelRetraction => exact accepted_of_cancelRetraction h
  | activateTla => exact accepted_of_activateTla h
  | rentSubAccount => exact accepted_of_rentSubAccount h
  | renewTla => exact accepted_of_renewTla h
  | setMainWallet => exact accepted_of_setMainWallet h
  | renewSubAccount => exact accepted_of_renewSubAccount h
  | reclaimSweepFt => exact accepted_of_reclaimSweepFt h
  | reclaimFinalize => exact accepted_of_reclaimFinalize h
  | exportSubAccount => exact accepted_of_exportSubAccount h
  | listSubAccount => exact accepted_of_listSubAccount h
  | unlistSubAccount => exact accepted_of_unlistSubAccount h
  | acceptOffer => exact accepted_of_acceptOffer h
  | revokeOffer => exact accepted_of_revokeOffer h
  | buySubAccount => exact accepted_of_buySubAccount h
  | resaleUnlock | resaleAbort => exact accepted_of_isResale rfl h
  | _ => exact accepted_of_configures rfl h

end

end HosTla
