-- SUMMARY: The prices that the views publish are the payments from which on calls are accepted, and what these take.
import HosTla.Registry.Views
import HosTla.Safety.Entries

/-!
# Quotes

A client reads a price off a view and attaches it to a call some blocks later. The views
compute prices on their own, next to the methods that check them. The price of a view is
exactly what the method asks for, and it stays so as long as no admin changes the fees.
-/

namespace HosTla

open Foundation

/-! ## Asking for a price -/

/-- Whether the chain takes the call of this caller depends on the payment only through the
price, and an accepted call does with the payment what `Takes` says. -/
structure Chain.AsksFor (c : Chain) (caller : AccountId) (op : Op) (price : ℕ)
    (Takes : ℕ → Outcome → Prop) : Prop where
  threshold : ∀ paid reserve paid' reserve', (c.callOutcome caller paid reserve op).isSome →
    ((c.callOutcome caller paid' reserve' op).isSome ↔ price ≤ paid')
  takes : ∀ paid reserve o, c.callOutcome caller paid reserve op = some o → Takes paid o

/-- The price is revenue at once, and the rest of the payment is credited back. -/
def Outcome.Books (r : TlaRegistry) (caller : AccountId) (price paid : ℕ) (o : Outcome) : Prop :=
  o.registry.totalRevenue = satAdd u128Max r.totalRevenue price ∧ o.promise = none ∧
    o.credits = excessCredit caller (paid - price)

section

variable {c : Chain} {caller : AccountId} {op : Op} {price : ℕ} {Takes : ℕ → Outcome → Prop}

/-- A payable method is looked at in any environment with the same caller and clock. -/
theorem Chain.AsksFor.of_run (hop : op.payable = true)
    (hpaid : ∀ env o, Accepted env c.registry op o → env.predecessor = caller →
      price ≤ env.attachedDeposit ∧ Takes env.attachedDeposit o)
    (hrun : ∀ env env' o, Accepted env c.registry op o → env.predecessor = caller →
      env'.predecessor = env.predecessor → env'.blockTimestamp = env.blockTimestamp →
      price ≤ env'.attachedDeposit → ∃ o', op.run env' c.registry = .ok o') :
    c.AsksFor caller op price Takes where
  threshold := by
    intro paid reserve paid' reserve' h
    obtain ⟨o, ho⟩ := Option.isSome_iff_exists.mp h
    have haccepted := (accepted_of_callOutcome ho).2
    constructor
    · intro h'
      obtain ⟨o', ho'⟩ := Option.isSome_iff_exists.mp h'
      exact (hpaid _ _ (accepted_of_callOutcome ho').2 rfl).1
    · intro hle
      obtain ⟨o', ho'⟩ := hrun _ (c.callEnv caller paid' reserve') _ haccepted rfl rfl rfl hle
      unfold callOutcome
      rw [if_neg fun hnot => hnot.2 hop, ho']
      rfl
  takes paid reserve o ho := (hpaid _ _ (accepted_of_callOutcome ho).2 rfl).2

end

/-! ## The methods -/

namespace Chain

variable {c : Chain} {tlaId : AccountId} {tla : TlaEntry}

theorem asksFor_activateTla (c : Chain) (caller tlaId : AccountId) :
    c.AsksFor caller (.activateTla tlaId)
      (satAdd u128Max c.registry.feeConfig.tlaAllocationFee
        (baseRent (byteLen tlaId.chars % 256) c.registry.feeConfig))
      (Outcome.Books c.registry caller (satAdd u128Max c.registry.feeConfig.tlaAllocationFee
        (baseRent (byteLen tlaId.chars % 256) c.registry.feeConfig))) := by
  refine .of_run rfl ?_ ?_
  · rintro env o ho rfl
    cases ho with
    | activateTla _ hrequired hpaid =>
      subst hrequired
      exact ⟨hpaid, rfl, rfl, rfl⟩
    | configured hop => cases hop
    | resale hop => cases hop
  · rintro env env' o ho - hcaller - hle
    cases ho with
    | activateTla hpaused _ _ htla hstatus htype hlicensee =>
      simp only [Op.run, TlaRegistry.activateTla, bind_eq_ok, rejectIf_eq_ok, okOr_eq_ok, pure_eq_ok,
        TlaRegistry.assertNotPaused_eq_ok, not_lt, not_not, hcaller]
      exact ⟨_, (), hpaused, (), hle, _, htla, (), hstatus, (), htype, _, hlicensee, (), rfl, rfl⟩
    | configured hop => cases hop
    | resale hop => cases hop

theorem asksFor_renewTla (c : Chain) (caller tlaId : AccountId) :
    c.AsksFor caller (.renewTla tlaId) (baseRent (byteLen tlaId.chars % 256) c.registry.feeConfig)
      (Outcome.Books c.registry caller
        (baseRent (byteLen tlaId.chars % 256) c.registry.feeConfig)) := by
  refine .of_run rfl ?_ ?_
  · rintro env o ho rfl
    cases ho with
    | renewTla _ hrent _ _ _ _ _ hpaid =>
      subst hrent
      exact ⟨hpaid, rfl, rfl, rfl⟩
    | configured hop => cases hop
    | resale hop => cases hop
  · rintro env env' o ho - hcaller hnow hle
    cases ho with
    | @renewTla _ tla _ hpaused _ htla hstatus htime hlicensee hadmin =>
      have hadmin' : c.registry.assertAdminUnlessBusiness env' tla = .ok () := by
        unfold TlaRegistry.assertAdminUnlessBusiness TlaRegistry.assertAdmin at hadmin ⊢
        rw [hcaller]
        exact hadmin
      simp only [Op.run, TlaRegistry.renewTla, bind_eq_ok, rejectIf_eq_ok, okOr_eq_ok, pure_eq_ok,
        TlaRegistry.assertNotPaused_eq_ok, not_lt, not_le, not_not, ge_iff_le, hcaller, hnow]
      exact ⟨_, (), hpaused, _, htla, (), hstatus, (), htime, (), hlicensee, (), hadmin', (), hle,
        rfl⟩
    | configured hop => cases hop
    | resale hop => cases hop

theorem asksFor_renewSubAccount (htla : c.registry.tlas.get tlaId = some tla) (caller : AccountId)
    (name : Str) :
    c.AsksFor caller (.renewSubAccount tlaId name)
      (calculateRent tla tlaId name c.registry.feeConfig)
      (Outcome.Books c.registry caller (calculateRent tla tlaId name c.registry.feeConfig)) := by
  refine .of_run rfl ?_ ?_
  · rintro env o ho rfl
    cases ho with
    | renewSubAccount _ _ _ _ _ htla' _ hrent hpaid =>
      cases htla.symm.trans htla'
      subst hrent
      exact ⟨hpaid, rfl, rfl, rfl⟩
    | configured hop => cases hop
    | resale hop => cases hop
  · rintro env env' o ho - hcaller hnow hle
    cases ho with
    | renewSubAccount hpaused hsub htime howner hret htla' hlife =>
      cases htla.symm.trans htla'
      simp only [Op.run, TlaRegistry.renewSubAccount, bind_eq_ok, rejectIf_eq_ok, okOr_eq_ok,
        pure_eq_ok, TlaRegistry.assertNotPaused_eq_ok, not_lt, not_le, not_not, ge_iff_le, hcaller,
        hnow]
      exact ⟨_, (), hpaused, _, hsub, (), htime, (), howner, (), hret, tla, htla, (), hlife, (), hle,
        rfl⟩
    | configured hop => cases hop
    | resale hop => cases hop

/-- The payment of a rental is taken when the account has been created. -/
theorem asksFor_rentSubAccount (htla : c.registry.tlas.get tlaId = some tla)
    (caller mainWallet : AccountId) (name : Str) (ownerKey : PublicKey) :
    c.AsksFor caller (.rentSubAccount tlaId name ownerKey mainWallet)
      (satAdd u128Max (calculateRent tla tlaId name c.registry.feeConfig)
        c.registry.feeConfig.accountCreationDeposit)
      fun paid o => o.promise = some (.createSubAccount {
        tlaId, name, ownerKey
        creationDeposit := c.registry.feeConfig.accountCreationDeposit
        payer := caller
        rent := calculateRent tla tlaId name c.registry.feeConfig
        attached := paid }) := by
  refine .of_run rfl ?_ ?_
  · rintro env o ho rfl
    cases ho with
    | rentSubAccount _ _ _ _ htla' _ _ hrent hpaid =>
      cases htla.symm.trans htla'
      subst hrent
      exact ⟨hpaid, rfl⟩
    | configured hop => cases hop
    | resale hop => cases hop
  · rintro env env' o ho - hcaller hnow hle
    cases ho with
    | rentSubAccount hpaused hname hfree hwallet htla' haccepting hlicensee _ _ hcap =>
      cases htla.symm.trans htla'
      have hfree' : ¬ c.registry.subAccounts.containsKey (subAccountKey tlaId name) = true := by
        rw [Bool.not_eq_true, LookupMap.containsKey_eq_false]
        exact hfree
      simp only [Op.run, TlaRegistry.rentSubAccount, exists_bind_eq_ok, rejectIf_eq_ok, okOr_eq_ok,
        validateName_eq_ok, TlaRegistry.assertNotPaused_eq_ok, not_lt, not_not, hcaller, hnow]
      refine ⟨(), hpaused, (), hname, (), hfree', (), hwallet, tla, htla, (), haccepting, (),
        hlicensee, (), hle, ?_⟩
      -- The default mother, which is set first, changes neither the count nor the cap.
      rw [TlaRegistry.ensureMotherDefault_eq]
      split
      · rename_i htype
        exact exists_bind_eq_ok.mpr
          ⟨_, businessCountCheckAndBump_eq_ok.mpr ⟨hcap htype, rfl⟩, _, rfl⟩
      · exact ⟨_, rfl⟩
    | configured hop => cases hop
    | resale hop => cases hop

end Chain

/-! ## Sales -/

/-- The price a buyer reads off the two views of a key: an offer bound to the buyer goes
before the listing. -/
def priceFor (offer : Option AcceptedOfferView) (listing : Option ListingView)
    (buyer : AccountId) : Option ℕ :=
  match offer with
  | some o => if o.buyer = buyer then some o.priceYocto else listing.map ListingView.priceYocto
  | none => listing.map ListingView.priceYocto

theorem priceFor_eq (r : TlaRegistry) (tlaId : AccountId) (name : Str) (buyer : AccountId) :
    priceFor (r.getAcceptedOffer tlaId name) (r.getListing tlaId name) buyer =
      r.quotedPrice (subAccountKey tlaId name) buyer := by
  simp only [priceFor, TlaRegistry.getAcceptedOffer, TlaRegistry.getListing,
    TlaRegistry.quotedPrice, Option.map_map]
  cases r.acceptedOffers.get (subAccountKey tlaId name) <;> rfl

/-- Any other deposit that covers the price locks the same record. -/
theorem Locked.resolve {r : TlaRegistry} {key : Str} {buyer : AccountId} {deposit price : ℕ}
    {listings : LookupMap Str Listing} {acceptedOffers : LookupMap Str AcceptedOffer}
    (h : Locked r key buyer deposit listings acceptedOffers price) {deposit' : ℕ}
    (hle : price ≤ deposit') :
    r.resolveAndLockSale key buyer deposit' = .ok ({ r with listings, acceptedOffers }, price) := by
  unfold TlaRegistry.resolveAndLockSale
  cases h with
  | offer hoffer hbuyer =>
    simp only [hoffer, if_pos hbuyer, TlaRegistry.lockOffer, bind_eq_ok, rejectIf_eq_ok, not_lt]
    exact ⟨(), hle, rfl⟩
  | @listing listing hother hlisting =>
    have hlock : r.lockListing key deposit' = .ok ({ r with
        listings := r.listings.insert key { listing with settling := true } }, listing.price) := by
      simp only [TlaRegistry.lockListing, bind_eq_ok, okOr_eq_ok, rejectIf_eq_ok, not_lt]
      exact ⟨_, hlisting, (), hle, rfl⟩
    split
    · rename_i offer hoffer
      rw [if_neg (hother offer hoffer)]
      exact hlock
    · exact hlock

theorem Chain.asksFor_buySubAccount {c : Chain} {buyer tlaId : AccountId} {name : Str} {price : ℕ}
    (hprice : priceFor (c.registry.getAcceptedOffer tlaId name) (c.registry.getListing tlaId name)
      buyer = some price) (newOwnerKey : PublicKey) :
    c.AsksFor buyer (.buySubAccount tlaId name newOwnerKey) price fun paid o =>
      o.promise.bind (fun p => p.flight.selling) =
        some ⟨tlaId, name, buyer, newOwnerKey, price, paid⟩ := by
  refine .of_run rfl ?_ ?_
  · rintro env o ho rfl
    cases ho with
    | buySubAccount _ _ _ hlock =>
      cases hprice.symm.trans ((priceFor_eq ..).trans hlock.quotedPrice)
      refine ⟨hlock.price_le, ?_⟩
      split <;> rfl
    | configured hop => cases hop
    | resale hop => cases hop
  · rintro env env' o ho rfl hcaller hnow hle
    cases ho with
    | @buySubAccount _ seller _ _ _ _ _ _ hpaused hidle hsell hlock haccount =>
      cases hprice.symm.trans ((priceFor_eq ..).trans hlock.quotedPrice)
      have hsell' : c.registry.assertSellable env' (subAccountKey tlaId name) tlaId = .ok seller := by
        unfold TlaRegistry.assertSellable at hsell ⊢
        rw [hnow]
        exact hsell
      simp only [Op.run, TlaRegistry.buySubAccount, exists_bind_eq_ok, okOr_eq_ok,
        TlaRegistry.assertNotPaused_eq_ok, AccountId.parse_eq_some, hcaller]
      exact ⟨(), hpaused, (), hidle, _, hsell', _, hlock.resolve hle, _, haccount, _, rfl⟩
    | configured hop => cases hop
    | resale hop => cases hop

/-! ## The quotes of a state -/

/-- The prices that the views publish in the registry state `r` at the time `now` are the
prices of the chain. -/
structure Chain.Honours (c : Chain) (r : TlaRegistry) (now : ℕ) : Prop where
  rental : ∀ {tlaId name q}, r.getRentPrice tlaId name = .ok q → ∀ caller mainWallet ownerKey,
    c.AsksFor caller (.rentSubAccount tlaId name ownerKey mainWallet) q.totalYocto fun paid o =>
      o.promise = some (.createSubAccount {
        tlaId, name, ownerKey
        creationDeposit := q.creationDepositYocto
        payer := caller
        rent := q.rentYocto
        attached := paid })
  renewal : ∀ {tlaId name v}, r.getSubAccount now tlaId name = .ok (some v) → ∀ caller,
    c.AsksFor caller (.renewSubAccount tlaId name) v.annualRent
      (Outcome.Books c.registry caller v.annualRent)
  tlaRenewal : ∀ {tlaId v}, r.getTla now tlaId = some v → ∀ caller,
    c.AsksFor caller (.renewTla tlaId) v.annualRent
      (Outcome.Books c.registry caller v.annualRent)
  tlaActivation : ∀ {tlaId v price}, r.getTla now tlaId = some v →
    price = satAdd u128Max r.getFeeConfig.tlaAllocationFee v.annualRent → ∀ caller,
      c.AsksFor caller (.activateTla tlaId) price (Outcome.Books c.registry caller price)
  /-- The sum over a business TLA is made of the prices of its calls. -/
  business : ∀ {tlaId q}, r.getBusinessRenewalCost tlaId = .ok q →
    q.totalYocto = satAdd u128Max q.tlaRentYocto
        (satMul u128Max q.perSubYocto (r.getBusinessSubCount tlaId)) ∧
      (∀ caller, c.AsksFor caller (.renewTla tlaId) q.tlaRentYocto
        (Outcome.Books c.registry caller q.tlaRentYocto)) ∧
      ∀ caller name, c.AsksFor caller (.renewSubAccount tlaId name) q.perSubYocto
        (Outcome.Books c.registry caller q.perSubYocto)
  /-- The two records of the key are still the ones that the views showed. -/
  purchase : ∀ {tlaId name buyer price},
    c.registry.getListing tlaId name = r.getListing tlaId name →
    c.registry.getAcceptedOffer tlaId name = r.getAcceptedOffer tlaId name →
    priceFor (r.getAcceptedOffer tlaId name) (r.getListing tlaId name) buyer = some price →
    ∀ newOwnerKey, c.AsksFor buyer (.buySubAccount tlaId name newOwnerKey) price fun paid o =>
      o.promise.bind (fun p => p.flight.selling) =
        some ⟨tlaId, name, buyer, newOwnerKey, price, paid⟩

/-- A rent depends on what a TLA never changes. -/
theorem TlaEntry.Later.calculateRent_eq {tla tla' : TlaEntry} (h : tla.Later tla')
    (tlaId : AccountId) (name : Str) (config : FeeConfig) :
    calculateRent tla' tlaId name config = calculateRent tla tlaId name config := by
  have hterms := h.terms
  simp only [TlaEntry.terms, Prod.mk.injEq] at hterms
  unfold calculateRent
  rw [hterms.1, hterms.2.1]

/-- Whatever happens in between, the chain honours the quotes of an earlier state as long as
the fees are the same: of a call that meets the other conditions, the price decides whether
it is taken, and it pays exactly the price. -/
theorem quotes_honoured {g : Genesis} {c c' : Chain} {tr : List (Transition Chain Label)}
    (h : c.Reached g) (hrun : Run Chain.step c tr c')
    (hfees : c'.registry.feeConfig = c.registry.feeConfig) : c'.Honours c.registry c.now where
  rental := by
    intro tlaId name q hq caller mainWallet ownerKey
    simp only [TlaRegistry.getRentPrice, bind_eq_ok, okOr_eq_ok, pure_eq_ok] at hq
    obtain ⟨tla, htla, rfl⟩ := hq
    obtain ⟨tla', htla', hlater⟩ := h.later_of_run hrun htla
    have hasks := Chain.asksFor_rentSubAccount htla' caller mainWallet name ownerKey
    rw [hfees, hlater.calculateRent_eq] at hasks
    exact hasks
  renewal := by
    intro tlaId name v hv caller
    simp only [TlaRegistry.getSubAccount] at hv
    split at hv
    · cases hv
    · simp only [bind_eq_ok, okOr_eq_ok, pure_eq_ok, Option.some.injEq] at hv
      obtain ⟨tla, htla, rfl⟩ := hv
      obtain ⟨tla', htla', hlater⟩ := h.later_of_run hrun htla
      have hasks := Chain.asksFor_renewSubAccount htla' caller name
      rw [hfees, hlater.calculateRent_eq] at hasks
      exact hasks
  tlaRenewal := by
    intro tlaId v hv caller
    obtain ⟨tla, -, rfl⟩ := Option.map_eq_some_iff.mp hv
    have hasks := c'.asksFor_renewTla caller tlaId
    rw [hfees] at hasks
    exact hasks
  tlaActivation := by
    rintro tlaId v price hv rfl caller
    obtain ⟨tla, -, rfl⟩ := Option.map_eq_some_iff.mp hv
    have hasks := c'.asksFor_activateTla caller tlaId
    rw [hfees] at hasks
    exact hasks
  business := by
    intro tlaId q hq
    simp only [TlaRegistry.getBusinessRenewalCost, bind_eq_ok, okOr_eq_ok, rejectIf_eq_ok,
      pure_eq_ok, not_not] at hq
    obtain ⟨tla, htla, -, htype, rfl⟩ := hq
    obtain ⟨tla', htla', hlater⟩ := h.later_of_run hrun htla
    refine ⟨rfl, fun caller => ?_, fun caller name => ?_⟩
    · have hasks := c'.asksFor_renewTla caller tlaId
      rw [hfees] at hasks
      exact hasks
    · have hasks := Chain.asksFor_renewSubAccount htla' caller name
      rw [hfees, hlater.calculateRent_eq, calculateRent, htype] at hasks
      exact hasks
  purchase := by
    intro tlaId name buyer price hlisting hoffer hprice newOwnerKey
    rw [← hlisting, ← hoffer] at hprice
    exact Chain.asksFor_buySubAccount hprice newOwnerKey

/-- The price for `n.hos` is read in one block, and is just enough in a later one. -/
theorem quotes_honoured_opened :
    ∃ q c', Sample.opened.registry.getRentPrice Sample.tla Sample.name = .ok q ∧
      Sample.opened.step (.tick 5) = some c' ∧
      (c'.callOutcome Sample.alice q.totalYocto 0 (.rentSubAccount Sample.tla Sample.name
        Sample.ownerKey Sample.alice)).isSome = true := by
  have hquote : (Sample.opened.registry.getRentPrice Sample.tla
    Sample.name).toOption.isSome = true := by decide +kernel
  have hrents : ((Sample.opened.step (.tick 5)).bind fun c =>
    c.callOutcome Sample.alice (100 * oneNear) 0 (.rentSubAccount Sample.tla Sample.name
      Sample.ownerKey Sample.alice)).isSome = true := by decide +kernel
  obtain ⟨q, hq⟩ := Option.isSome_iff_exists.mp hquote
  rw [toOption_eq_some] at hq
  obtain ⟨o, ho⟩ := Option.isSome_iff_exists.mp hrents
  obtain ⟨c', hstep, ho⟩ := Option.bind_eq_some_iff.mp ho
  have hfees : c'.registry.feeConfig = Sample.opened.registry.feeConfig := by
    simp only [Chain.step] at hstep
    split at hstep
    · cases hstep; rfl
    · cases hstep
  have hhonours := quotes_honoured Sample.opened_reached (Run.nil.snoc hstep) hfees
  have hasks := hhonours.rental hq Sample.alice Sample.alice Sample.ownerKey
  refine ⟨q, c', hq, hstep, (hasks.threshold (100 * oneNear) 0 q.totalYocto 0 ?_).mpr
    (Nat.le_refl _)⟩
  rw [ho]
  rfl

end HosTla
