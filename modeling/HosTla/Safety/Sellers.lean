-- SUMMARY: A sale takes the account from the owner it was bought from, at the price quoted to the buyer.
import HosTla.Custody.Refinement
import HosTla.Market.Refinement

/-!
# Sellers

A sale in flight names neither the seller nor the rental. Its callback reads the owner
by key. The lock of the record keeps the owner in place as long as the rental lasts. If
the entry goes and the name is rented again, the new renter is read in its stead.
-/

namespace HosTla

open Foundation

/-! ## The terms of a sale -/

/-- The price of a key for a buyer: that of the accepted offer if it is bound to this
buyer, or else that of the listing. -/
def TlaRegistry.quotedPrice (r : TlaRegistry) (key : Str) (buyer : AccountId) : Option ℕ :=
  match r.acceptedOffers.get key with
  | some offer =>
    if offer.buyer = buyer then some offer.price else (r.listings.get key).map Listing.price
  | none => (r.listings.get key).map Listing.price

theorem Locked.quotedPrice {r : TlaRegistry} {key : Str} {buyer : AccountId} {deposit price : ℕ}
    {listings : LookupMap Str Listing} {acceptedOffers : LookupMap Str AcceptedOffer}
    (h : Locked r key buyer deposit listings acceptedOffers price) :
    r.quotedPrice key buyer = some price := by
  unfold TlaRegistry.quotedPrice
  cases h with
  | offer hoffer hbuyer => simp [hoffer, hbuyer]
  | listing hother hlisting =>
    cases hoffer : r.acceptedOffers.get key with
    | none => simp [hlisting]
    | some offer => simp [hother offer hoffer, hlisting]

/-- The terms a sale in flight has from the call that opened it. -/
structure SaleTerms (rec : CallRecord) (b : PendingBuy) : Prop where
  op : rec.op = .buySubAccount b.tlaId b.name b.newOwnerKey
  buyer : b.buyer = rec.predecessor
  deposit : b.deposit = rec.deposit
  price : rec.before.registry.quotedPrice b.key b.buyer = some b.price
  paid : b.price ≤ b.deposit

/-- A sale in flight has the terms of an accepted `buy_sub_account`. -/
theorem System.Reached.saleTerms {g : Genesis} {s : System} (h : s.Reached g) {id : ℕ}
    {fl : Flight} {b : PendingBuy} (hfl : s.chain.flights.get id = some fl)
    (hselling : fl.selling = some b) :
    ∃ rec o, s.history.opened id = some rec ∧ rec.outcome = some o ∧ SaleTerms rec b := by
  obtain ⟨rec, o, promise, hopened, houtcome, -, hpromise, hb⟩ :=
    h.opened Flight.selling_carried hfl hselling
  obtain ⟨-, haccepted⟩ := Chain.accepted_of_callOutcome houtcome
  obtain ⟨seller, hop, hbuyer, hdeposit, -, -, hlock⟩ := haccepted.buy_of_selling hpromise hb
  exact ⟨rec, o, hopened, houtcome,
    { op := hop
      buyer := hbuyer
      deposit := hdeposit
      price := hlock.quotedPrice
      paid := hlock.price_le }⟩

/-! ## The owner at the callback -/

/-- The callback takes the account from the owner that had it when the buy was accepted,
in the same rental, and credits that owner. -/
def FairSale (s s' : System) (id : ℕ) (b : PendingBuy) : Prop :=
  ∃ rec sub₀ sub rental, s.history.opened id = some rec ∧ SaleTerms rec b ∧
    rec.before.registry.subAccounts.get b.key = some sub₀ ∧ rec.rentals b.key = some rental ∧
    s.chain.registry.subAccounts.get b.key = some sub ∧ s.history.rentals b.key = some rental ∧
    sub.owner = sub₀.owner ∧
    s'.history.credits = s.history.credits ++ s.chain.registry.saleCredits b sub₀.owner

/-- No name is rented out while a sale of it is in flight. -/
def System.KeepsSellers (s : System) : Label → Prop
  | .call predecessor deposit reserve (.rentSubAccount tlaId name ownerKey mainWallet) =>
    (s.chain.callOutcome predecessor deposit reserve
        (.rentSubAccount tlaId name ownerKey mainWallet)).isSome →
      ∀ b, s.chain.InFlight Flight.selling b → b.key ≠ subAccountKey tlaId name
  | _ => True

instance (s : System) (l : Label) : Decidable (s.KeepsSellers l) := by
  delta System.KeepsSellers
  rcases l with ⟨_, _, _, op⟩ | _
  · rcases op with _ | _ <;> infer_instance
  all_goals infer_instance

namespace System

variable {s s' : System} {l : Label}

theorem keepsHeld_of_keepsSellers (h : s.KeepsSellers l) : s.market.KeepsHeld (s.marketEvent l) := by
  cases l with
  | call predecessor deposit reserve op =>
    simp only [marketEvent]
    cases hcall : s.chain.callOutcome predecessor deposit reserve op with
    | none => trivial
    | some o =>
      cases op with
      | rentSubAccount tlaId name ownerKey mainWallet =>
        intro i t hsale
        simp only [market, Option.map_eq_some_iff, Prod.mk.injEq] at hsale
        obtain ⟨b, hb, hkey, -⟩ := hsale
        obtain ⟨fl, hfl, hselling⟩ := Option.bind_eq_some_iff.mp hb
        exact h (by rw [hcall]; rfl) b ⟨i, fl, hfl, hselling⟩ hkey
      | _ => trivial
  | deliver id ok =>
    simp only [marketEvent]
    cases s.chain.callbackOutcome id with
    | none => trivial
    | some o =>
      cases s.chain.flights.get id with
      | none => trivial
      | some fl =>
        cases fl with
        | created p ok => cases ok <;> trivial
        | reclaimFinalized p ok => cases ok <;> trivial
        | exportSettled tlaId name ok =>
          cases ok with
          | true => simp only [Option.elim_some, Flight.marketEvent]; split <;> trivial
          | false => trivial
        | buyQueries => simp only [Option.elim_some, Flight.marketEvent]; split <;> trivial
        | sold b ok => cases ok <;> trivial
        | _ => trivial
  | _ => trivial

theorem held_init (g : Genesis) : (System.init g).market.Held := by
  -- There are no sales at first.
  refine ⟨?_, ?_⟩
  · intro i j key t t' hi
    cases hi
  · intro i key t hi
    cases hi

theorem held_step {g : Genesis} (hs : s.Reached g) (hheld : s.market.Held)
    (hkeeps : s.KeepsSellers l) (hstep : s.step l = some s') : s'.market.Held := by
  obtain ⟨hallowed, hmarket⟩ := market_step (System.Reached.chain hs).freshIds hstep
  rw [hmarket]
  exact hheld.apply hallowed (keepsHeld_of_keepsSellers hkeeps)

/-- Sales hold their lots in every run that keeps sellers. -/
theorem held_of_run {g : Genesis} {tr : List (Transition System Label)}
    (hrun : Run System.step (System.init g) tr s) (hkeeps : Meets KeepsSellers tr) :
    s.market.Held := by
  refine hrun.guarded (I := fun s => s.market.Held) (held_init g) ?_ hkeeps
  intro s l s' hs hheld hkeeps hstep
  exact held_step hs hheld hkeeps hstep

/-- The tenancy at the callback is the tenancy at the call. -/
theorem tenancy_of_held (hheld : s.market.Held) {id : ℕ} {b : PendingBuy} {sub : SubAccountEntry}
    {rec : CallRecord} (hsale : s.chain.saleOf id = some b)
    (hopened : s.history.opened id = some rec)
    (hsub : s.chain.registry.subAccounts.get b.key = some sub) :
    ∃ sub₀, rec.before.registry.subAccounts.get b.key = some sub₀ ∧ sub.owner = sub₀.owner ∧
      s.history.rentals b.key = rec.rentals b.key := by
  -- The sale remembers the tenancy of the call, and the lot has that of now.
  have hmarket : s.market.sales id = some (b.key, rec.tenancy b.key) := by
    simp [market, hsale, hopened]
  have htenancy : (s.market.lot b.key).tenancy = some ⟨sub.owner, s.history.rentals b.key⟩ := by
    simp [market, TlaRegistry.lot, hsub]
  have hsame := (hheld.tenancy hmarket (by rw [htenancy]; exact Option.some_ne_none _)).1
  rw [htenancy] at hsame
  obtain ⟨sub₀, hsub₀, heq⟩ := Option.map_eq_some_iff.mp hsame.symm
  rw [Tenancy.mk.injEq] at heq
  exact ⟨sub₀, hsub₀, heq.1.symm, heq.2.symm⟩

end System

/-- In a run in which no name is rented out while a sale of it is in flight, every
callback that moves ownership takes it from the owner the account was bought from. -/
theorem fair_sales_of_run {g : Genesis} {tr : List (Transition System Label)} {s : System}
    (hrun : Run System.step (System.init g) tr s) (hkeeps : Meets System.KeepsSellers tr) :
    ∀ t ∈ tr, ∀ id ok b sub, t.label = .deliver id ok →
      t.before.chain.flights.get id = some (.sold b true) →
      t.before.chain.registry.subAccounts.get b.key = some sub →
        FairSale t.before t.after id b := by
  rintro ⟨s, l, s'⟩ ht id ok b sub rfl hfl hsub
  obtain ⟨tr', hrun', hkeeps', hstep⟩ := hrun.meets_of_mem hkeeps ht
  have hs : s.Reached g := ⟨tr', hrun'⟩
  have hheld := System.held_of_run hrun' hkeeps'
  obtain ⟨rec, o, hopened, -, hterms⟩ := hs.saleTerms hfl rfl
  obtain ⟨sub₀, hsub₀, howner, hrentals⟩ :=
    System.tenancy_of_held hheld (Chain.saleOf_of_get hfl) hopened hsub
  obtain ⟨rental, hrental⟩ := hs.rental hsub
  refine ⟨rec, sub₀, sub, rental, hopened, hterms, hsub₀, hrentals.symm.trans hrental, hsub,
    hrental, howner, ?_⟩
  cases System.delivered_of_step hfl hstep with
  | settled ho _ hhist =>
    cases ho with
    | sold hsub' =>
      rw [hsub] at hsub'
      cases hsub'
      rw [← howner]
      exact congrArg History.credits hhist
    | saleVoid hnone => rw [hsub] at hnone; cases hnone
  | panicked he => exact absurd (Flight.selling_of_panic he) (by simp [Flight.selling])
  | advanced hnone => cases hnone

/-! ## A sale that outlives the entry -/

namespace Sample

def carol : AccountId := ⟨['c', 'a'], by decide⟩

/-- Bob buys the listed account of Alice and the locker has taken his key. The id of
the sale is 4. -/
def bought : List Label :=
  rented ++ [call alice 1 (.listSubAccount tla name 5),
    call bob 5 (.buySubAccount tla name otherKey), .deliver 4 true]

/-- The account is exported before the callback of the sale. -/
def boughtExported : List Label :=
  bought ++ [call admin 0 (.exportSubAccount tla name), .deliver 5 true, .deliver 5 true,
    .deliver 5 true, .deliver 5 true]

def purchase : PendingBuy where
  tlaId := tla
  name := name
  buyer := bob
  newOwnerKey := otherKey
  price := 5
  deposit := 5

end Sample

/-- Carol rents the name, and the callback takes the entry from her. -/
theorem sale_takes_from_later_renter :
    ∃ s s' : System, s.Reached Sample.genesis ∧
      s.chain.flights.get 4 = some (.sold Sample.purchase true) ∧
      (s.chain.registry.subAccounts.get Sample.purchase.key).isSome = true ∧
      s.step (.deliver 4 true) = some s' ∧ ¬ FairSale s s' 4 Sample.purchase := by
  let ls : List Label := Sample.boughtExported ++ [Sample.rent Sample.carol]
  refine ⟨Sample.historyAfter ls (by decide +kernel),
    (System.step _ (.deliver 4 true)).get (by decide +kernel), Sample.history_reached _ _, rfl,
    by decide +kernel, (Option.some_get _).symm, ?_⟩
  rintro ⟨rec, sub₀, sub, rental, hopened, -, hsub₀, -, hsub, -, howner, -⟩
  have hnow : ((Sample.historyAfter ls (by decide +kernel)).chain.registry.subAccounts.get
      Sample.purchase.key).map SubAccountEntry.owner = some Sample.carol := by decide +kernel
  have hthen : ((Sample.historyAfter ls (by decide +kernel)).history.opened 4).bind
      (fun rec => (rec.before.registry.subAccounts.get Sample.purchase.key).map
        SubAccountEntry.owner) = some Sample.alice := by decide +kernel
  rw [hsub] at hnow
  rw [hopened, Option.bind_some, hsub₀] at hthen
  have hsame : some Sample.carol = some Sample.alice :=
    hnow.symm.trans ((congrArg some howner).trans hthen)
  exact absurd hsame (by decide)

/-- Without the export the callback takes the entry from Alice. -/
theorem fair_sales_of_run_bought :
    ∃ tr : List (Transition System Label),
      tr.map Transition.label = Sample.bought ++ [.deliver 4 true] ∧
      ∀ t ∈ tr, ∀ id ok b sub, t.label = .deliver id ok →
        t.before.chain.flights.get id = some (.sold b true) →
        t.before.chain.registry.subAccounts.get b.key = some sub →
          FairSale t.before t.after id b := by
  obtain ⟨tr, hrun, hlabels, hkeeps⟩ := Sample.exists_history_run_meets System.KeepsSellers
    (Sample.bought ++ [.deliver 4 true]) (by decide +kernel) (by decide +kernel)
  exact ⟨tr, hlabels, fair_sales_of_run hrun hkeeps⟩

end HosTla
