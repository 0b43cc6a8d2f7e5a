-- SUMMARY: What a callback of the registry does, one constructor for each of its branches.
import HosTla.Registry.Accepted
import HosTla.Chain.System

/-!
# Callbacks

`Settled r fl o` says that the callback the chain `fl` waits for runs on the
state `r` with outcome `o`. As for calls, the new state is an update of `r`.
-/

namespace HosTla

open Foundation

/-- The business counts after the decrement of a callback. -/
def TlaRegistry.releasedCount (r : TlaRegistry) (tlaId : AccountId) : LookupMap AccountId ℕ :=
  if r.isBusiness tlaId = true ∧ r.getBusinessSubCount tlaId ≠ 0 then
    if r.getBusinessSubCount tlaId - 1 = 0 then r.businessSubCount.remove tlaId
    else r.businessSubCount.insert tlaId (r.getBusinessSubCount tlaId - 1)
  else r.businessSubCount

theorem TlaRegistry.businessCountRelease_eq (r : TlaRegistry) (tlaId : AccountId) :
    r.businessCountRelease tlaId = { r with businessSubCount := r.releasedCount tlaId } := by
  unfold businessCountRelease businessCountDecrement releasedCount
  by_cases hb : r.isBusiness tlaId = true
  · by_cases hc : r.getBusinessSubCount tlaId = 0
    · simp [hb, hc]
    · simp [hb, hc]
  · simp [hb]

/-- What settling a sale leaves when no ownership moves. -/
def TlaRegistry.aborted (r : TlaRegistry) (b : PendingBuy) : Outcome :=
  ⟨{ r with
      pendingRefunds := (r.ledger.creditAll u128Max [(b.buyer, b.deposit)]).pending
      totalPendingRefunds := (r.ledger.creditAll u128Max [(b.buyer, b.deposit)]).total
      listings := (r.clearSettling b.key).listings
      acceptedOffers := (r.clearSettling b.key).acceptedOffers },
    none, [(b.buyer, b.deposit)]⟩

/-- The credits of a sale that goes through. -/
def TlaRegistry.saleCredits (r : TlaRegistry) (b : PendingBuy) (seller : AccountId) :
    List (AccountId × ℕ) :=
  (seller, b.price - r.resaleCommission b.price) :: excessCredit b.buyer (b.deposit - b.price)

inductive Settled (r : TlaRegistry) : Flight → Outcome → Prop
  | created {p : PendingRent} {sub : SubAccountEntry} (hsub : r.subAccounts.get p.key = some sub) :
      Settled r (.created p true)
        ⟨{ r with
            subAccountCount := satAdd u64Max r.subAccountCount 1
            totalRevenue := satAdd u128Max r.totalRevenue p.rent
            pendingRefunds := (r.ledger.creditAll u128Max (excessCredit p.payer (p.attached -
              satAdd u128Max p.rent r.feeConfig.accountCreationDeposit))).pending
            totalPendingRefunds := (r.ledger.creditAll u128Max (excessCredit p.payer (p.attached -
              satAdd u128Max p.rent r.feeConfig.accountCreationDeposit))).total },
          none, excessCredit p.payer
            (p.attached - satAdd u128Max p.rent r.feeConfig.accountCreationDeposit)⟩
  | creationFailed {p : PendingRent} :
      Settled r (.created p false)
        ⟨{ r with
            subAccounts := r.subAccounts.remove p.key
            businessSubCount := r.releasedCount p.tlaId
            pendingRefunds := (r.ledger.creditAll u128Max [(p.payer, p.attached)]).pending
            totalPendingRefunds := (r.ledger.creditAll u128Max [(p.payer, p.attached)]).total },
          none, [(p.payer, p.attached)]⟩
  | refundPaid {caller : AccountId} {amount : ℕ} :
      Settled r (.refundSettled caller amount true) (.of r)
  | refundRestored {caller : AccountId} {amount : ℕ} :
      Settled r (.refundSettled caller amount false) (.of { r with
        pendingRefunds := (r.ledger.credit u128Max caller amount).pending
        totalPendingRefunds := (r.ledger.credit u128Max caller amount).total })
  | reclaimBlocked {a : AccountId} {p : PendingReclaim} {allowlist : List AccountId}
      {answers : List (Option PromiseResult)} :
      Settled r (.reclaimQueries a p allowlist answers) (.of r)
  | reclaimCleared {a subAccount : AccountId} {p : PendingReclaim} {allowlist : List AccountId}
      {answers : List (Option PromiseResult)} {results : List PromiseResult}
      (hanswers : collectAnswers answers = some results)
      (hclear : reclaimBlockReason results allowlist = .ok none)
      (haccount : subAccount.chars = p.key) :
      Settled r (.reclaimQueries a p allowlist answers)
        (.withPromise r (.finalizeDelete subAccount p))
  | reclaimed {p : PendingReclaim} :
      Settled r (.reclaimFinalized p true) (.of { r with
        subAccounts := r.subAccounts.remove p.key
        listings := r.listings.remove p.key
        acceptedOffers := r.acceptedOffers.remove p.key
        subAccountCount := r.subAccountCount - 1
        businessSubCount := r.releasedCount p.tlaId })
  | reclaimFailed {p : PendingReclaim} :
      Settled r (.reclaimFinalized p false) (.of r)
  | exported {tlaId : AccountId} {name : Str} {sub : SubAccountEntry}
      (hsub : r.subAccounts.get (subAccountKey tlaId name) = some sub) :
      Settled r (.exportSettled tlaId name true) (.of { r with
        subAccounts := r.subAccounts.remove (subAccountKey tlaId name)
        listings := r.listings.remove (subAccountKey tlaId name)
        acceptedOffers := r.acceptedOffers.remove (subAccountKey tlaId name)
        subAccountCount := r.subAccountCount - 1
        businessSubCount := r.releasedCount tlaId })
  | exportedAlready {tlaId : AccountId} {name : Str}
      (hsub : r.subAccounts.get (subAccountKey tlaId name) = none) :
      Settled r (.exportSettled tlaId name true) (.of r)
  | exportFailed {tlaId : AccountId} {name : Str} :
      Settled r (.exportSettled tlaId name false) (.of r)
  | saleBlocked {a : AccountId} {b : PendingBuy} {allowlist : List AccountId}
      {answers : List (Option PromiseResult)} {results : List PromiseResult}
      (hanswers : collectAnswers answers = some results) :
      Settled r (.buyQueries a b allowlist answers) (r.aborted b)
  | saleCleared {a subAccount : AccountId} {b : PendingBuy} {allowlist : List AccountId}
      {answers : List (Option PromiseResult)} {results : List PromiseResult}
      (hanswers : collectAnswers answers = some results)
      (hclear : saleBlockReason results allowlist = none)
      (haccount : subAccount.chars = b.key) :
      Settled r (.buyQueries a b allowlist answers) (.withPromise r (.settleTransfer subAccount b))
  | sold {b : PendingBuy} {sub : SubAccountEntry} (hsub : r.subAccounts.get b.key = some sub) :
      Settled r (.sold b true)
        ⟨{ r with
            totalRevenue := satAdd u128Max r.totalRevenue (r.resaleCommission b.price)
            pendingRefunds := (r.ledger.creditAll u128Max (r.saleCredits b sub.owner)).pending
            totalPendingRefunds := (r.ledger.creditAll u128Max (r.saleCredits b sub.owner)).total
            subAccounts := r.subAccounts.insert b.key { sub with
              owner := b.buyer
              mainWallet := b.buyer }
            listings := r.listings.remove b.key
            acceptedOffers := r.acceptedOffers.remove b.key },
          none, r.saleCredits b sub.owner⟩
  | saleVoid {b : PendingBuy} (hsub : r.subAccounts.get b.key = none) :
      Settled r (.sold b true) (r.aborted b)
  | saleFailed {b : PendingBuy} : Settled r (.sold b false) (r.aborted b)

/-! ## Callbacks by branch -/

section

variable {r : TlaRegistry} {o : Outcome}

theorem settled_of_created {p : PendingRent} {ok : Bool}
    (h : r.onSubAccountCreated ok p.tlaId p.name p.payer p.rent p.attached = .ok o) :
    Settled r (.created p ok) o := by
  cases ok with
  | true =>
    simp only [TlaRegistry.onSubAccountCreated, if_true, Outcome.refundExcess_of, bind_eq_ok,
      okOr_eq_ok, pure_eq_ok] at h
    obtain ⟨sub, hsub, rfl⟩ := h
    exact .created hsub
  | false =>
    simp only [TlaRegistry.onSubAccountCreated, Bool.false_eq_true, if_false, pure_eq_ok] at h
    rw [TlaRegistry.businessCountRelease_eq] at h
    subst h
    exact .creationFailed

theorem settled_of_refundSettled {caller : AccountId} {amount : ℕ} {ok : Bool}
    (h : r.onClaimRefundSettled ok caller amount = .ok o) :
    Settled r (.refundSettled caller amount ok) o := by
  cases ok with
  | true =>
    simp only [TlaRegistry.onClaimRefundSettled, if_true, pure_eq_ok] at h
    subst h
    exact .refundPaid
  | false =>
    simp only [TlaRegistry.onClaimRefundSettled, Bool.false_eq_true, if_false, pure_eq_ok] at h
    subst h
    exact .refundRestored

theorem settled_of_reclaimQueries {a : AccountId} {p : PendingReclaim}
    {allowlist : List AccountId} {answers : List (Option PromiseResult)}
    {results : List PromiseResult} (hanswers : collectAnswers answers = some results)
    (h : r.onBalancesChecked results p.tlaId p.name p.destination allowlist = .ok o) :
    Settled r (.reclaimQueries a p allowlist answers) o := by
  simp only [TlaRegistry.onBalancesChecked, bind_eq_ok] at h
  obtain ⟨reason, hreason, h⟩ := h
  cases reason with
  | some reason =>
    simp only [pure_eq_ok] at h
    subst h
    exact .reclaimBlocked
  | none =>
    simp only [bind_eq_ok, okOr_eq_ok, AccountId.parse_eq_some, pure_eq_ok] at h
    obtain ⟨subAccount, haccount, rfl⟩ := h
    exact .reclaimCleared hanswers hreason haccount

theorem settled_of_reclaimFinalized {p : PendingReclaim} {ok : Bool}
    (h : r.onReclaimFinalized ok p.tlaId p.name = .ok o) :
    Settled r (.reclaimFinalized p ok) o := by
  cases ok with
  | true =>
    simp only [TlaRegistry.onReclaimFinalized, if_true, pure_eq_ok, TlaRegistry.removeSubAccount,
      TlaRegistry.businessCountRelease_eq] at h
    subst h
    exact .reclaimed
  | false =>
    simp only [TlaRegistry.onReclaimFinalized, Bool.false_eq_true, if_false, pure_eq_ok] at h
    subst h
    exact .reclaimFailed

theorem settled_of_exportSettled {tlaId : AccountId} {name : Str} {ok : Bool}
    (h : r.onExportSettled ok tlaId name = .ok o) :
    Settled r (.exportSettled tlaId name ok) o := by
  unfold TlaRegistry.onExportSettled at h
  dsimp only at h
  split at h
  · rename_i hif
    obtain ⟨rfl, hsub⟩ := hif
    obtain ⟨sub, hsub⟩ := LookupMap.containsKey_eq_true.mp hsub
    simp only [pure_eq_ok, TlaRegistry.removeSubAccount, TlaRegistry.businessCountRelease_eq] at h
    subst h
    exact .exported hsub
  · rename_i hif
    simp only [pure_eq_ok] at h
    subst h
    -- No removal: the promise failed, or the entry is gone already.
    cases ok with
    | true =>
      simp only [true_and, Bool.not_eq_true, LookupMap.containsKey_eq_false] at hif
      exact .exportedAlready hif
    | false => exact .exportFailed

theorem settled_of_buyQueries {a : AccountId} {b : PendingBuy}
    {allowlist : List AccountId} {answers : List (Option PromiseResult)}
    {results : List PromiseResult} (hanswers : collectAnswers answers = some results)
    (h : r.onBuyBalancesChecked results b allowlist = .ok o) :
    Settled r (.buyQueries a b allowlist answers) o := by
  unfold TlaRegistry.onBuyBalancesChecked at h
  dsimp only at h
  split at h
  · simp only [pure_eq_ok] at h
    subst h
    exact .saleBlocked hanswers
  · rename_i hclear
    split at h
    · rename_i subAccount haccount
      simp only [pure_eq_ok] at h
      subst h
      exact .saleCleared hanswers hclear (AccountId.parse_eq_some.mp haccount)
    · simp only [pure_eq_ok] at h
      subst h
      exact .saleBlocked hanswers

theorem settled_of_sold {b : PendingBuy} {ok : Bool}
    (h : r.onSubAccountSold ok b.tlaId b.name b.buyer b.price b.deposit = .ok o) :
    Settled r (.sold b ok) o := by
  cases ok with
  | false =>
    simp only [TlaRegistry.onSubAccountSold, Bool.false_eq_true, if_false, pure_eq_ok] at h
    subst h
    exact .saleFailed
  | true =>
    simp only [TlaRegistry.onSubAccountSold, if_true] at h
    split at h
    · rename_i hsub
      simp only [pure_eq_ok] at h
      subst h
      exact .saleVoid hsub
    · rename_i sub hsub
      simp only [pure_eq_ok] at h
      subst h
      have hsold := Settled.sold (r := r) (b := b) hsub
      -- The source credits the excess in a branch, the constructor as a list.
      unfold TlaRegistry.saleCredits excessCredit at hsold
      unfold Outcome.refundExcess
      split at hsold
      · rename_i hexcess
        rw [if_pos hexcess]
        exact hsold
      · rename_i hexcess
        rw [if_neg hexcess]
        exact hsold

/-- The callback of a chain, when it runs without a panic. -/
theorem settled_of_callback {fl : Flight} (h : fl.callback r = some (.ok o)) :
    Settled r fl o := by
  cases fl with
  | created => exact settled_of_created (Option.some.inj h)
  | refundSettled => exact settled_of_refundSettled (Option.some.inj h)
  | reclaimQueries =>
    obtain ⟨results, hanswers, h⟩ := Option.map_eq_some_iff.mp h
    exact settled_of_reclaimQueries hanswers h
  | reclaimFinalized => exact settled_of_reclaimFinalized (Option.some.inj h)
  | exportSettled => exact settled_of_exportSettled (Option.some.inj h)
  | buyQueries =>
    obtain ⟨results, hanswers, h⟩ := Option.map_eq_some_iff.mp h
    exact settled_of_buyQueries hanswers h
  | sold => exact settled_of_sold (Option.some.inj h)
  | _ => cases h

end

/-- Callbacks do not write the TLAs. -/
theorem Settled.tlas {r : TlaRegistry} {fl : Flight} {o : Outcome} (h : Settled r fl o) :
    o.registry.tlas = r.tlas := by
  cases h <;> rfl

end HosTla
