-- SUMMARY: The stored records of the registry, its errors, and the lifecycle of TLAs and sub-accounts.
import HosTla.AccountId
import HosTla.Foundation.Saturating
import HosTla.Foundation.Guard

/-!
# Registry records

The data of `types.rs` and `error.rs`. Amounts are in yoctoNEAR and times in
nanoseconds, as natural numbers. Where the source saturates, `satAdd` does.
-/

namespace HosTla

open Foundation

def oneNear : ℕ := 1000000000000000000000000
def oneYearNs : ℕ := 365 * 24 * 60 * 60 * 1000000000
def gracePeriodNs : ℕ := 14 * 24 * 60 * 60 * 1000000000

structure PublicKey where
  bytes : List UInt8
deriving DecidableEq

inductive TlaType
  | business
  | open_
deriving DecidableEq

inductive TlaStatus
  | registered
  | active
  | suspended
deriving DecidableEq

inductive PremiumCategory
  | legendary
  | premium
  | standard
  | community
deriving DecidableEq

def PremiumCategory.multiplier : PremiumCategory → ℕ × ℕ
  | .legendary => (5, 1)
  | .premium => (3, 1)
  | .standard => (3, 2)
  | .community => (0, 1)

structure TlaEntry where
  tlaType : TlaType
  status : TlaStatus
  licensee : Option AccountId
  premiumCategory : PremiumCategory
  activatedAt : ℕ
  expiresAt : ℕ
deriving DecidableEq

structure SubAccountEntry where
  owner : AccountId
  tlaId : AccountId
  mainWallet : AccountId
  rentedAt : ℕ
  expiresAt : ℕ
  retractionAt : Option ℕ
deriving DecidableEq

structure Listing where
  price : ℕ
  settling : Bool
deriving DecidableEq

structure AcceptedOffer where
  buyer : AccountId
  price : ℕ
  settling : Bool
deriving DecidableEq

structure FeeConfig where
  tlaAllocationFee : ℕ
  rentTier5 : ℕ
  rentTier8 : ℕ
  rentTier10 : ℕ
  rentTier12plus : ℕ
  subFeePerAccount : ℕ
  accountCreationDeposit : ℕ
  businessMaxSubs : UInt32
  retractionNoticeNs : ℕ
  resaleCommissionBps : ℕ
deriving DecidableEq

inductive LifecycleStatus
  | registered
  | active
  | grace
  | reclaimable
  | suspended
deriving DecidableEq

inductive ContractError
  | onlyAdmin
  | onlyLicensee
  | onlyOwner
  | paused
  | noPendingRefund
  | tlaNotFound
  | tlaAlreadyRegistered
  | tlaNotInRegisteredState
  | tlaNotActive
  | tlaNotSuspended
  | tlaNotAcceptingRentals
  | tlaPastGracePeriod
  | businessTlaRequiresLicensee
  | businessTlaMissingLicensee
  | wrongActivationEndpoint
  | subAccountNotFound
  | subAccountNameTaken
  | subAccountPastGracePeriod
  | subAccountNotReclaimable
  | mainWalletEqualsSubAccount
  | invalidSubAccountId
  | invalidName (reason : NameInvalidReason)
  | insufficientPayment
  | insufficientRevenue
  | withdrawalAmountZero
  | tokenNotInAllowlist
  | allowlistFull
  | allowlistLengthMismatch
  | invalidFtBalanceResponse
  | allRentTiersZero
  | creationDepositZero
  | cannotRemoveLastAdmin
  | alreadyAtCurrentVersion
  | subAccountIsMother
  | motherIsReclaimable
  | motherNotSet
  | maxBusinessSubsReached
  | noRetractionScheduled
  | retractionAlreadyScheduled
  | retractionAlreadyElapsed
  | retractionPending
  | notBusinessTla
  | requiresOneYocto
  | insufficientContractBalance
  | notListed
  | saleInProgress
  | subAccountNotSellable
  | priceNotMet
  | invalidPrice
  | noAcceptedOffer
  | invalidCommissionRate
deriving DecidableEq

abbrev Result := Except ContractError

/-! ## Lifecycle -/

/-- The three-way split both lifecycle methods make on an expiry time. -/
def expiryLifecycle (expiresAt now : ℕ) : LifecycleStatus :=
  if now < expiresAt then .active
  else if now < satAdd u64Max expiresAt gracePeriodNs then .grace
  else .reclaimable

def TlaEntry.lifecycle (tla : TlaEntry) (now : ℕ) : LifecycleStatus :=
  match tla.status with
  | .registered => .registered
  | .suspended => .suspended
  | .active => expiryLifecycle tla.expiresAt now

def TlaEntry.isAcceptingRentals (tla : TlaEntry) (now : ℕ) : Bool :=
  tla.status = .active && now < tla.expiresAt

def SubAccountEntry.lifecycle (sub : SubAccountEntry) (now : ℕ) : LifecycleStatus :=
  expiryLifecycle sub.expiresAt now

/-- `effective_sub_lifecycle` of `mother.rs`. -/
def effectiveSubLifecycle (sub : SubAccountEntry) (tla : TlaEntry)
    (retractionNoticeNs now : ℕ) : LifecycleStatus :=
  if tla.lifecycle now = .reclaimable then .reclaimable
  else
    match sub.retractionAt with
    | some retractionAt =>
      if satAdd u64Max retractionAt retractionNoticeNs ≤ now then .reclaimable
      else sub.lifecycle now
    | none => sub.lifecycle now

theorem expiryLifecycle_eq_reclaimable {expiresAt now : ℕ} :
    expiryLifecycle expiresAt now = .reclaimable ↔
      expiresAt ≤ now ∧ satAdd u64Max expiresAt gracePeriodNs ≤ now := by
  unfold expiryLifecycle
  split
  · simp; omega
  · split
    · simp; omega
    · simp; omega

theorem TlaEntry.lifecycle_eq_reclaimable {tla : TlaEntry} {now : ℕ} :
    tla.lifecycle now = .reclaimable ↔
      tla.status = .active ∧ tla.expiresAt ≤ now ∧
        satAdd u64Max tla.expiresAt gracePeriodNs ≤ now := by
  unfold TlaEntry.lifecycle
  cases tla.status <;> simp [expiryLifecycle_eq_reclaimable]

/-- What makes a sub-account reclaimable whatever its TLA: its retraction notice has
elapsed, or it is past its own grace. -/
def SubAccountEntry.Lapsed (sub : SubAccountEntry) (notice now : ℕ) : Prop :=
  (∃ t, sub.retractionAt = some t ∧ satAdd u64Max t notice ≤ now) ∨
    sub.lifecycle now = .reclaimable

theorem effectiveSubLifecycle_eq_reclaimable {sub : SubAccountEntry} {tla : TlaEntry}
    {notice now : ℕ} :
    effectiveSubLifecycle sub tla notice now = .reclaimable ↔
      tla.lifecycle now = .reclaimable ∨ sub.Lapsed notice now := by
  unfold effectiveSubLifecycle SubAccountEntry.Lapsed
  split
  · simp [*]
  · split
    · split <;> simp [*]
    · simp [*]

/-! Time alone does not end a reclaimable state. -/

theorem TlaEntry.reclaimable_mono {tla : TlaEntry} {now now' : ℕ} (hle : now ≤ now')
    (h : tla.lifecycle now = .reclaimable) : tla.lifecycle now' = .reclaimable := by
  rw [lifecycle_eq_reclaimable] at h ⊢
  obtain ⟨hstatus, hexpires, hgrace⟩ := h
  exact ⟨hstatus, Nat.le_trans hexpires hle, Nat.le_trans hgrace hle⟩

theorem SubAccountEntry.Lapsed.mono {sub : SubAccountEntry} {notice now now' : ℕ}
    (h : sub.Lapsed notice now) (hle : now ≤ now') : sub.Lapsed notice now' := by
  -- Both causes compare a fixed time with the clock.
  rcases h with ⟨t, ht, helapsed⟩ | hexpired
  · exact .inl ⟨t, ht, Nat.le_trans helapsed hle⟩
  · rw [lifecycle, expiryLifecycle_eq_reclaimable] at hexpired
    refine .inr (expiryLifecycle_eq_reclaimable.mpr ?_)
    exact ⟨Nat.le_trans hexpired.1 hle, Nat.le_trans hexpired.2 hle⟩

theorem effectiveSubLifecycle_mono {sub : SubAccountEntry} {tla : TlaEntry} {notice now now' : ℕ}
    (hle : now ≤ now') (h : effectiveSubLifecycle sub tla notice now = .reclaimable) :
    effectiveSubLifecycle sub tla notice now' = .reclaimable := by
  rw [effectiveSubLifecycle_eq_reclaimable] at h ⊢
  exact h.imp (tla.reclaimable_mono hle) (·.mono hle)

/-! ## Name checks -/

def validateName (name : Str) : Result Unit :=
  match nameInvalidReason name with
  | some reason => .error (.invalidName reason)
  | none => .ok ()

@[simp] theorem validateName_eq_ok {name : Str} {u : Unit} :
    validateName name = .ok u ↔ nameInvalidReason name = none := by
  unfold validateName; split <;> simp [*]

/-! ## Fees -/

def baseRent (totalLen : ℕ) (config : FeeConfig) : ℕ :=
  if totalLen ≤ 5 then config.rentTier5
  else if totalLen ≤ 8 then config.rentTier8
  else if totalLen ≤ 10 then config.rentTier10
  else config.rentTier12plus

def subAccountRent (totalLen : ℕ) (category : PremiumCategory) (config : FeeConfig) : ℕ :=
  satMul u128Max (baseRent totalLen config) category.multiplier.1 / category.multiplier.2

def calculateRent (tla : TlaEntry) (tlaId : AccountId) (name : Str) (config : FeeConfig) : ℕ :=
  match tla.tlaType with
  | .business => config.subFeePerAccount
  | .open_ => subAccountRent (totalNameLength tlaId name) tla.premiumCategory config

def defaultFeeConfig : FeeConfig where
  tlaAllocationFee := 1000 * oneNear
  rentTier5 := 50 * oneNear
  rentTier8 := 20 * oneNear
  rentTier10 := 10 * oneNear
  rentTier12plus := 5 * oneNear
  subFeePerAccount := oneNear / 2
  accountCreationDeposit := 2 * oneNear
  businessMaxSubs := 1000
  retractionNoticeNs := 7 * 24 * 60 * 60 * 1000000000
  resaleCommissionBps := 0

end HosTla
