-- SUMMARY: The registry refines the model of the market: each step of a chain with its history is one event of the market.
import HosTla.Market.Model
import HosTla.Chain.InFlight

/-!
# The registry keeps a market

The lots of the market are read off the maps of the registry, with the tenancies from
the history. Its sales are the sale chains in flight.
-/

namespace HosTla

open Foundation

def TlaRegistry.lot (r : TlaRegistry) (h : History) (key : Str) : Lot Tenancy where
  tenancy := (r.subAccounts.get key).map fun sub => ⟨sub.owner, h.rentals key⟩
  listing := (r.listings.get key).map fun l => ⟨h.listed key, l.settling⟩
  offer := (r.acceptedOffers.get key).map fun o => ⟨h.offered key, o.settling⟩

/-- The tenancy of a key at the recorded call. -/
def CallRecord.tenancy (rec : CallRecord) (key : Str) : Option Tenancy :=
  (rec.before.registry.subAccounts.get key).map fun sub => ⟨sub.owner, rec.rentals key⟩

/-- The sale a chain in flight is about. -/
def Chain.saleOf (c : Chain) (id : ℕ) : Option PendingBuy := (c.flights.get id).bind Flight.selling

def System.market (s : System) : Market Str Tenancy where
  lot := s.chain.registry.lot s.history
  sales id := (s.chain.saleOf id).map fun b =>
    (b.key, (s.history.opened id).bind fun rec => rec.tenancy b.key)

/-- The accepted offer on the key is bound to this buyer. -/
def TlaRegistry.offeredTo (r : TlaRegistry) (key : Str) (buyer : AccountId) : Bool :=
  (r.acceptedOffers.get key).any fun offer => offer.buyer = buyer

def Op.marketEvent (c : Chain) (predecessor : AccountId) : Op → MarketEvent Str Tenancy
  | .rentSubAccount tlaId name _ _ =>
    .work (subAccountKey tlaId name) (.rent ⟨predecessor, some c.nextId⟩)
  | .listSubAccount tlaId name _ => .work (subAccountKey tlaId name) .list
  | .unlistSubAccount tlaId name => .work (subAccountKey tlaId name) .unlist
  | .acceptOffer tlaId name _ _ => .work (subAccountKey tlaId name) .acceptOffer
  | .revokeOffer tlaId name => .work (subAccountKey tlaId name) .revokeOffer
  | .buySubAccount tlaId name _ =>
    .openSale c.nextId (subAccountKey tlaId name)
      (c.registry.offeredTo (subAccountKey tlaId name) predecessor)
  | _ => .keep

/-- The event of a callback. A sale that goes on to its transfer is none. -/
def Flight.marketEvent (r : TlaRegistry) (id : ℕ) (o : Outcome) : Flight → MarketEvent Str Tenancy
  | .created p false => .work p.key .release
  | .reclaimFinalized p true => .work p.key .purge
  | .exportSettled tlaId name true =>
    if r.subAccounts.containsKey (subAccountKey tlaId name) then
      .work (subAccountKey tlaId name) .purge
    else .keep
  | .buyQueries _ b _ _ => if o.promise.isSome then .keep else .closeSale id b.key none
  | .sold b true =>
    .closeSale id b.key ((r.subAccounts.get b.key).map fun _ t => { t with owner := b.buyer })
  | .sold b false => .closeSale id b.key none
  | _ => .keep

def System.marketEvent (s : System) : Label → MarketEvent Str Tenancy
  | .call predecessor deposit reserve op =>
    (s.chain.callOutcome predecessor deposit reserve op).elim .keep fun _ =>
      op.marketEvent s.chain predecessor
  | .deliver id _ =>
    (s.chain.callbackOutcome id).elim .keep fun o =>
      (s.chain.flights.get id).elim .keep (Flight.marketEvent s.chain.registry id o)
  | _ => .keep

/-! ## Lots -/

namespace TlaRegistry

variable {r r' : TlaRegistry} {h h' : History} {key : Str}

theorem lot_congr (hsub : (r'.subAccounts.get key).map SubAccountEntry.owner =
      (r.subAccounts.get key).map SubAccountEntry.owner)
    (hlisting : r'.listings.get key = r.listings.get key)
    (hoffer : r'.acceptedOffers.get key = r.acceptedOffers.get key)
    (hrentals : h'.rentals key = h.rentals key) (hlisted : h'.listed key = h.listed key)
    (hoffered : h'.offered key = h.offered key) : r'.lot h' key = r.lot h key := by
  have htenancy : ∀ (m : Option SubAccountEntry) (i : Option ℕ),
      (m.map fun sub => (⟨sub.owner, i⟩ : Tenancy)) =
        (m.map SubAccountEntry.owner).map fun owner => ⟨owner, i⟩ := by
    intro m i
    rw [Option.map_map]
    rfl
  unfold lot
  rw [htenancy, htenancy, hsub, hlisting, hoffer, hrentals, hlisted, hoffered]

/-- An update of an entry that keeps its owner keeps all lots. -/
theorem lot_amend {sub sub' : SubAccountEntry} (hsub : r.subAccounts.get key = some sub)
    (howner : sub'.owner = sub.owner) (h : History) :
    ({ r with subAccounts := r.subAccounts.insert key sub' } : TlaRegistry).lot h = r.lot h := by
  funext k
  refine lot_congr ?_ rfl rfl rfl rfl rfl
  show ((r.subAccounts.insert key sub').get k).map SubAccountEntry.owner = _
  rw [LookupMap.get_insert]
  split
  · subst k; simp [hsub, howner]
  · rfl

theorem lot_tenancy_ne_none {sub : SubAccountEntry} (hsub : r.subAccounts.get key = some sub) :
    (r.lot h key).tenancy ≠ none := by
  simp [lot, hsub]

theorem not_settling_lot (hidle : r.assertSaleIdle key = .ok ()) : ¬ (r.lot h key).Settling := by
  obtain ⟨hlistings, hoffers⟩ := assertSaleIdle_eq_ok.mp hidle
  rintro ⟨x, hx | hx, hsettling⟩
  · obtain ⟨l, hl, rfl⟩ := Option.map_eq_some_iff.mp hx
    rw [hlistings l hl] at hsettling
    cases hsettling
  · obtain ⟨offer, ho, rfl⟩ := Option.map_eq_some_iff.mp hx
    rw [hoffers offer ho] at hsettling
    cases hsettling

/-- A caller that may sell the entry is its tenant. -/
theorem free_of_sellable {env : Env} {tlaId owner : AccountId}
    (hidle : r.assertSaleIdle key = .ok ()) (hsell : r.assertSellable env key tlaId = .ok owner) :
    (r.lot h key).tenancy = some ⟨owner, h.rentals key⟩ ∧ (r.lot h key).tenancy ≠ none ∧
      ¬ (r.lot h key).Settling := by
  obtain ⟨-, sub, -, -, -, hsub, -, -, -, -, rfl⟩ := assertSellable_eq_ok.mp hsell
  exact ⟨by simp [lot, hsub], lot_tenancy_ne_none hsub, not_settling_lot hidle⟩

theorem free_of_owner {owner : AccountId} (hidle : r.assertSaleIdle key = .ok ())
    (howner : r.subAccountOwner key = .ok owner) :
    (r.lot h key).tenancy ≠ none ∧ ¬ (r.lot h key).Settling := by
  obtain ⟨sub, hsub, -⟩ := subAccountOwner_eq_ok.mp howner
  exact ⟨lot_tenancy_ne_none hsub, not_settling_lot hidle⟩

/-! ### The lots after a change of one key -/

theorem lot_update {e : LotEvent Tenancy} (hother : ∀ k, k ≠ key → r'.lot h' k = r.lot h k)
    (hkey : r'.lot h' key = (r.lot h key).apply e) :
    r'.lot h' = Function.update (r.lot h) key ((r.lot h key).apply e) := by
  funext k
  by_cases hk : k = key
  · subst hk
    rw [Function.update_self, hkey]
  · rw [Function.update_of_ne hk, hother k hk]

theorem lot_rented {sub : SubAccountEntry} {owner : AccountId} {i : ℕ}
    (hsubs : r'.subAccounts = r.subAccounts.insert key sub) (howner : sub.owner = owner)
    (hlistings : r'.listings = r.listings) (hoffers : r'.acceptedOffers = r.acceptedOffers)
    (hrentals : h'.rentals = Function.update h.rentals key (some i))
    (hlisted : h'.listed = h.listed) (hoffered : h'.offered = h.offered) :
    r'.lot h' = Function.update (r.lot h) key ((r.lot h key).apply (.rent ⟨owner, some i⟩)) := by
  refine lot_update (fun k hk => ?_) ?_
  · exact lot_congr (by rw [hsubs, LookupMap.get_insert_ne hk]) (by rw [hlistings])
      (by rw [hoffers]) (by rw [hrentals, Function.update_of_ne hk]) (by rw [hlisted])
      (by rw [hoffered])
  · simp [lot, Lot.apply, hsubs, howner, hlistings, hoffers, hrentals, hlisted, hoffered]

/-- A listing that the tenant places. -/
theorem lot_listed {price : ℕ} {t : Tenancy} (htenancy : (r.lot h key).tenancy = some t)
    (hlisted : h'.listed = Function.update h.listed key (some t))
    (hrentals : h'.rentals = h.rentals) (hoffered : h'.offered = h.offered) :
    { r with listings := r.listings.insert key { price, settling := false } }.lot h' =
      Function.update (r.lot h) key ((r.lot h key).apply .list) := by
  refine lot_update (fun k hk => ?_) ?_
  · exact lot_congr rfl (LookupMap.get_insert_ne hk) rfl (by rw [hrentals])
      (by rw [hlisted, Function.update_of_ne hk]) (by rw [hoffered])
  · simp only [Lot.apply, htenancy]
    simp only [lot] at htenancy
    simp [lot, hlisted, hrentals, hoffered, htenancy]

theorem lot_unlisted :
    { r with listings := r.listings.remove key }.lot h =
      Function.update (r.lot h) key ((r.lot h key).apply .unlist) := by
  refine lot_update (fun k hk => ?_) ?_
  · exact lot_congr rfl (LookupMap.get_remove_ne hk) rfl rfl rfl rfl
  · simp [lot, Lot.apply]

/-- An offer that the tenant accepts. -/
theorem lot_offered {price : ℕ} {buyer : AccountId} {t : Tenancy}
    (htenancy : (r.lot h key).tenancy = some t)
    (hoffered : h'.offered = Function.update h.offered key (some t))
    (hrentals : h'.rentals = h.rentals) (hlisted : h'.listed = h.listed) :
    { r with
        acceptedOffers :=
          r.acceptedOffers.insert key { buyer, price, settling := false } }.lot h' =
      Function.update (r.lot h) key ((r.lot h key).apply .acceptOffer) := by
  refine lot_update (fun k hk => ?_) ?_
  · exact lot_congr rfl rfl (LookupMap.get_insert_ne hk) (by rw [hrentals]) (by rw [hlisted])
      (by rw [hoffered, Function.update_of_ne hk])
  · simp only [Lot.apply, htenancy]
    simp only [lot] at htenancy
    simp [lot, hlisted, hrentals, hoffered, htenancy]

theorem lot_revoked :
    { r with acceptedOffers := r.acceptedOffers.remove key }.lot h =
      Function.update (r.lot h) key ((r.lot h key).apply .revokeOffer) := by
  refine lot_update (fun k hk => ?_) ?_
  · exact lot_congr rfl rfl (LookupMap.get_remove_ne hk) rfl rfl rfl
  · simp [lot, Lot.apply]

theorem lot_locked {buyer : AccountId} {deposit price : ℕ} {listings : LookupMap Str Listing}
    {acceptedOffers : LookupMap Str AcceptedOffer}
    (hlock : Locked r key buyer deposit listings acceptedOffers price) (h : History) :
    (if r.offeredTo key buyer then (r.lot h key).offer else (r.lot h key).listing) ≠ none ∧
      { r with listings, acceptedOffers }.lot h = Function.update (r.lot h) key
        ((r.lot h key).apply (.lock (r.offeredTo key buyer))) := by
  cases hlock with
  | @offer offer hoffer hbuyer hpaid =>
    have hoffered : r.offeredTo key buyer = true := by simp [offeredTo, hoffer, hbuyer]
    rw [hoffered]
    refine ⟨by simp [lot, hoffer], lot_update (fun k hk => ?_) ?_⟩
    · exact lot_congr rfl rfl (LookupMap.get_insert_ne hk) rfl rfl rfl
    · simp [lot, Lot.apply, Lot.setSettling, hoffer]
  | @listing listing hother hlisting hpaid =>
    have hoffered : r.offeredTo key buyer = false := by
      unfold offeredTo
      cases hoffer : r.acceptedOffers.get key with
      | none => rfl
      | some offer => simp [hother offer hoffer]
    rw [hoffered]
    refine ⟨by simp [lot, hlisting], lot_update (fun k hk => ?_) ?_⟩
    · exact lot_congr rfl (LookupMap.get_insert_ne hk) rfl rfl rfl rfl
    · simp [lot, Lot.apply, Lot.setSettling, hlisting]

theorem lot_released :
    { r with subAccounts := r.subAccounts.remove key }.lot h =
      Function.update (r.lot h) key ((r.lot h key).apply .release) := by
  refine lot_update (fun k hk => ?_) ?_
  · exact lot_congr (congrArg _ (LookupMap.get_remove_ne hk)) rfl rfl rfl rfl rfl
  · simp [lot, Lot.apply]

theorem lot_purged :
    { r with
        subAccounts := r.subAccounts.remove key
        listings := r.listings.remove key
        acceptedOffers := r.acceptedOffers.remove key }.lot h =
      Function.update (r.lot h) key ((r.lot h key).apply .purge) := by
  refine lot_update (fun k hk => ?_) ?_
  · exact lot_congr (congrArg _ (LookupMap.get_remove_ne hk)) (LookupMap.get_remove_ne hk)
      (LookupMap.get_remove_ne hk) rfl rfl rfl
  · simp [lot, Lot.apply]

theorem lot_clearSettling :
    (r.clearSettling key).lot h =
      Function.update (r.lot h) key ((r.lot h key).apply .unlock) := by
  refine lot_update (fun k hk => ?_) ?_
  · exact lot_congr rfl (LookupMap.get_modify_ne hk) (LookupMap.get_modify_ne hk) rfl rfl rfl
  · simp only [lot, clearSettling, Lot.apply, LookupMap.get_modify_self, Option.map_map]
    rfl

theorem lot_sold {sub : SubAccountEntry} (hsub : r.subAccounts.get key = some sub)
    (buyer : AccountId) :
    { r with
        subAccounts := r.subAccounts.insert key { sub with owner := buyer, mainWallet := buyer }
        listings := r.listings.remove key
        acceptedOffers := r.acceptedOffers.remove key }.lot h =
      Function.update (r.lot h) key
        ((r.lot h key).apply (.sell fun t => { t with owner := buyer })) := by
  refine lot_update (fun k hk => ?_) ?_
  · exact lot_congr (congrArg _ (LookupMap.get_insert_ne hk)) (LookupMap.get_remove_ne hk)
      (LookupMap.get_remove_ne hk) rfl rfl rfl
  · simp [lot, Lot.apply, hsub]

end TlaRegistry

/-! ## Sales -/

namespace Chain

variable {c : Chain} {id : ℕ}

theorem saleOf_eq_about (c : Chain) (id : ℕ) : c.saleOf id = c.about Flight.selling id := rfl

theorem saleOf_of_get {fl : Flight} (hfl : c.flights.get id = some fl) :
    c.saleOf id = fl.selling := about_of_get hfl

theorem saleOf_settle_ne {i : ℕ} {o : Outcome} (hi : i ≠ id) :
    (c.settle id o).saleOf i = c.saleOf i := about_settle_ne hi

theorem saleOf_settle_self (o : Outcome) :
    (c.settle id o).saleOf id = o.promise.bind fun p => p.flight.selling := about_settle_self o

end Chain

namespace System

variable {s s' : System} {l : Label}

/-- The sales are the same if the chains in flight are about the same sales. -/
theorem sales_congr (hfresh : s.chain.FreshIds) (hstep : s.step l = some s')
    (h : ∀ i, s'.chain.saleOf i = s.chain.saleOf i) : s'.market.sales = s.market.sales := by
  funext i
  simp only [market, h i]
  by_cases hi : i < s.chain.nextId
  · rw [opened_of_step hstep hi]
  · rw [Chain.saleOf_eq_about, hfresh.about_eq_none (Nat.not_lt.mp hi)]
    rfl

/-! ## Steps -/

theorem market_keep (hlots : s'.market.lot = s.market.lot)
    (hsales : s'.market.sales = s.market.sales) :
    s.market.Allowed .keep ∧ s'.market = s.market.apply .keep :=
  ⟨trivial, Market.ext hlots hsales⟩

theorem market_work {key : Str} {e : LotEvent Tenancy} (hallowed : (s.market.lot key).Allowed e)
    (hwork : e.ofSale = false) (hlots : s'.market.lot = s.market.setLot key e)
    (hsales : s'.market.sales = s.market.sales) :
    s.market.Allowed (.work key e) ∧ s'.market = s.market.apply (.work key e) :=
  ⟨⟨hallowed, hwork⟩, Market.ext hlots hsales⟩

/-- A callback without a promise ends the sale it belongs to. -/
theorem market_closed {id : ℕ} {fl : Flight} {o : Outcome}
    (hfl : s.chain.flights.get id = some fl) (hchain : s'.chain = s.chain.settle id o)
    (hhist : s'.history = { s.history with credits := s.history.credits ++ o.credits })
    {b : PendingBuy} {transfer : Option (Tenancy → Tenancy)}
    (hb : fl.selling = some b) (hp : o.promise = none)
    (hallowed : (s.market.lot b.key).Allowed (transfer.elim .unlock .sell))
    (hlots : s'.market.lot = s.market.setLot b.key (transfer.elim .unlock .sell)) :
    s.market.Allowed (.closeSale id b.key transfer) ∧
      s'.market = s.market.apply (.closeSale id b.key transfer) := by
  have hsale : s.market.sales id = some (b.key,
      (s.history.opened id).bind fun rec => rec.tenancy b.key) := by
    simp only [market, Chain.saleOf_of_get hfl, hb]
    rfl
  refine ⟨⟨hallowed, _, hsale⟩, Market.ext hlots (funext fun i => ?_)⟩
  simp only [market, hchain, hhist, Market.apply]
  by_cases hi : i = id
  · subst hi
    rw [Function.update_self, Chain.saleOf_settle_self, hp]
    rfl
  · rw [Function.update_of_ne hi, Chain.saleOf_settle_ne hi]

theorem market_accepted (hfresh : s.chain.FreshIds) {predecessor : AccountId}
    {deposit reserve : ℕ} {op : Op} {o : Outcome}
    (hstep : s.step (.call predecessor deposit reserve op) = some s')
    (hchain : s'.chain = s.chain.accept deposit o)
    (hhist : s'.history = s.history.recordCall s.chain predecessor deposit reserve op o)
    (ho : Accepted (s.chain.callEnv predecessor deposit reserve) s.chain.registry op o) :
    s.market.Allowed (op.marketEvent s.chain predecessor) ∧
      s'.market = s.market.apply (op.marketEvent s.chain predecessor) := by
  have hlot : s'.market.lot = o.registry.lot
      (s.history.recordCall s.chain predecessor deposit reserve op o) := by
    simp only [market, hchain, hhist]
    rfl
  -- Only a buy opens a sale. Every other call leaves the sales as they are.
  have hsales (hop : ∀ tlaId name key, op ≠ .buySubAccount tlaId name key) :
      s'.market.sales = s.market.sales := by
    refine sales_congr hfresh hstep fun i => ?_
    rw [hchain]
    refine Chain.about_accept hfresh (fun p hp => ?_) i
    cases hb : p.flight.selling with
    | none => rfl
    | some b =>
      obtain ⟨-, hbuy, -⟩ := ho.buy_of_selling hp hb
      exact absurd hbuy (hop _ _ _)
  cases ho with
  | configured hop =>
    cases op <;> cases hop <;> exact market_keep hlot (hsales (by simp))
  | resale hop =>
    cases op <;> cases hop <;> exact market_keep hlot (hsales (by simp))
  | rentSubAccount _ _ hfree =>
    refine market_work ?_ rfl (hlot.trans ?_) (hsales (by simp))
    · simp [market, TlaRegistry.lot, Lot.Allowed, hfree]
    · exact TlaRegistry.lot_rented (by rfl) (by rfl) (by rfl) (by rfl) (by rfl) (by rfl) (by rfl)
  | scheduleRetraction _ _ _ _ hsub =>
    refine market_keep (hlot.trans ?_) (hsales (by simp))
    exact TlaRegistry.lot_amend hsub (by rfl) s.history
  | cancelRetraction _ _ hsub =>
    refine market_keep (hlot.trans ?_) (hsales (by simp))
    exact TlaRegistry.lot_amend hsub (by rfl) s.history
  | setMainWallet _ _ _ hsub =>
    refine market_keep (hlot.trans ?_) (hsales (by simp))
    exact TlaRegistry.lot_amend hsub (by rfl) s.history
  | renewSubAccount _ hsub =>
    refine market_keep (hlot.trans ?_) (hsales (by simp))
    exact TlaRegistry.lot_amend hsub (by rfl) s.history
  | listSubAccount _ _ _ hidle hsell =>
    -- The caller is the tenant, so the record is placed by the tenancy there is.
    obtain ⟨htenancy, hfree⟩ := TlaRegistry.free_of_sellable (h := s.history) hidle hsell
    exact market_work hfree rfl (hlot.trans (TlaRegistry.lot_listed htenancy rfl rfl rfl))
      (hsales (by simp))
  | unlistSubAccount _ _ hidle _ howner =>
    exact market_work (TlaRegistry.free_of_owner hidle howner) rfl
      (hlot.trans TlaRegistry.lot_unlisted) (hsales (by simp))
  | acceptOffer _ _ _ hidle hsell =>
    obtain ⟨htenancy, hfree⟩ := TlaRegistry.free_of_sellable (h := s.history) hidle hsell
    exact market_work hfree rfl (hlot.trans (TlaRegistry.lot_offered htenancy rfl rfl rfl))
      (hsales (by simp))
  | revokeOffer _ _ hidle _ howner =>
    exact market_work (TlaRegistry.free_of_owner hidle howner) rfl
      (hlot.trans TlaRegistry.lot_revoked) (hsales (by simp))
  | buySubAccount _ hidle hsell hlock =>
    obtain ⟨-, hfree⟩ := TlaRegistry.free_of_sellable (h := s.history) hidle hsell
    obtain ⟨hrecord, hlocked⟩ := TlaRegistry.lot_locked hlock s.history
    have hfresh_id : s.market.sales s.chain.nextId = none := by
      simp [market, Chain.saleOf_eq_about, hfresh.about_eq_none (Nat.le_refl _)]
    refine ⟨⟨⟨hfree, hrecord⟩, hfresh_id⟩, Market.ext (hlot.trans hlocked) (funext fun i => ?_)⟩
    simp only [market, hchain, hhist, Op.marketEvent, Market.apply]
    by_cases hi : i = s.chain.nextId
    · subst hi
      rw [Function.update_self, Chain.saleOf_eq_about, Chain.about_accept_self rfl]
      simp only [History.recordCall, Function.update_self]
      split <;> rfl
    · rw [Function.update_of_ne hi, Chain.saleOf_eq_about, Chain.about_accept_ne hi]
      simp only [Chain.saleOf_eq_about, History.recordCall, Function.update_of_ne hi]
  | _ => exact market_keep hlot (hsales (by simp))

theorem market_settled (hfresh : s.chain.FreshIds) {id : ℕ} {ok : Bool} {fl : Flight}
    {o : Outcome} (hfl : s.chain.flights.get id = some fl)
    (hstep : s.step (.deliver id ok) = some s') (hchain : s'.chain = s.chain.settle id o)
    (hhist : s'.history = { s.history with credits := s.history.credits ++ o.credits })
    (ho : Settled s.chain.registry fl o) :
    s.market.Allowed (fl.marketEvent s.chain.registry id o) ∧
      s'.market = s.market.apply (fl.marketEvent s.chain.registry id o) := by
  have hlot : s'.market.lot = o.registry.lot s.history := by
    simp only [market, hchain, hhist]
    rfl
  have hsales (h : fl.selling = o.promise.bind fun p => p.flight.selling) :
      s'.market.sales = s.market.sales := by
    refine sales_congr hfresh hstep fun i => ?_
    rw [hchain]
    exact Chain.about_settle hfl h i
  -- All three ways to abort a sale have the same outcome.
  have hunlock {b : PendingBuy} (hb : fl.selling = some b)
      (ho : o = s.chain.registry.aborted b) :
      s.market.Allowed (.closeSale id b.key none) ∧
        s'.market = s.market.apply (.closeSale id b.key none) := by
    refine market_closed hfl hchain hhist hb (by rw [ho]; rfl) trivial (hlot.trans ?_)
    rw [ho]
    exact TlaRegistry.lot_clearSettling
  cases ho with
  | creationFailed =>
    exact market_work trivial rfl (hlot.trans TlaRegistry.lot_released) (hsales rfl)
  | reclaimed => exact market_work trivial rfl (hlot.trans TlaRegistry.lot_purged) (hsales rfl)
  | @exported tlaId name sub hsub =>
    have hevent (o : Outcome) : (Flight.exportSettled tlaId name true).marketEvent
        s.chain.registry id o = .work (subAccountKey tlaId name) .purge :=
      if_pos (LookupMap.containsKey_eq_true.mpr ⟨sub, hsub⟩)
    rw [hevent]
    exact market_work trivial rfl (hlot.trans TlaRegistry.lot_purged) (hsales rfl)
  | @exportedAlready tlaId name hnone =>
    have hevent : (Flight.exportSettled tlaId name true).marketEvent s.chain.registry id
        (.of s.chain.registry) = .keep := by
      refine if_neg ?_
      rw [LookupMap.containsKey_eq_false.mpr hnone]
      exact Bool.false_ne_true
    rw [hevent]
    exact market_keep hlot (hsales rfl)
  | saleBlocked => exact hunlock rfl rfl
  | saleVoid hsub =>
    simp only [Flight.marketEvent, hsub]
    exact hunlock rfl rfl
  | saleFailed => exact hunlock rfl rfl
  | @sold b sub hsub =>
    simp only [Flight.marketEvent, hsub, Option.map_some]
    exact market_closed hfl hchain hhist rfl rfl (TlaRegistry.lot_tenancy_ne_none hsub)
      (hlot.trans (TlaRegistry.lot_sold hsub b.buyer))
  | _ => exact market_keep hlot (hsales rfl)

/-- A step on which neither the registry nor the records of tenancies move. -/
theorem market_quiet (hfresh : s.chain.FreshIds) (hstep : s.step l = some s')
    (hreg : s'.chain.registry = s.chain.registry) (hrentals : s'.history.rentals = s.history.rentals)
    (hlisted : s'.history.listed = s.history.listed)
    (hoffered : s'.history.offered = s.history.offered)
    (hsale : ∀ i, s'.chain.saleOf i = s.chain.saleOf i) :
    s.market.Allowed .keep ∧ s'.market = s.market.apply .keep := by
  refine market_keep (funext fun key => ?_) (sales_congr hfresh hstep hsale)
  exact TlaRegistry.lot_congr (by rw [hreg]) (by rw [hreg]) (by rw [hreg]) (by rw [hrentals])
    (by rw [hlisted]) (by rw [hoffered])

/-- Every step of a chain with its history is its event of the market. -/
theorem market_step (hfresh : s.chain.FreshIds) (hstep : s.step l = some s') :
    s.market.Allowed (s.marketEvent l) ∧ s'.market = s.market.apply (s.marketEvent l) := by
  cases moved_of_step hstep with
  | rejected hcall =>
    simp only [marketEvent, hcall, Option.elim_none]
    exact market_quiet hfresh hstep rfl rfl rfl rfl fun _ => rfl
  | accepted hcall ho =>
    simp only [marketEvent, hcall, Option.elim_some]
    exact market_accepted hfresh hstep rfl rfl ho
  | settled hfl hcallback ho =>
    simp only [marketEvent, hfl, hcallback, Option.elim_some]
    exact market_settled hfresh hfl hstep rfl rfl ho
  | panicked hfl hcallback he =>
    simp only [marketEvent, hcallback, Option.elim_none]
    rw [History.recordReceipt_eq] at hstep ⊢
    exact market_quiet hfresh hstep rfl rfl rfl rfl
      (Chain.about_setFlight hfl (Flight.selling_kept.panicked he))
  | advanced hfl hcallback _ hadvance =>
    have hadv := Chain.advanced_of_advance hadvance
    simp only [marketEvent, hcallback, Option.elim_none]
    rw [History.recordReceipt_eq] at hstep ⊢
    exact market_quiet hfresh hstep hadv.registry rfl rfl rfl
      (hadv.about Flight.selling_kept hfresh hfl)
  | answered hfl hanswer =>
    exact market_quiet hfresh hstep hanswer.registry rfl rfl rfl
      (hanswer.about Flight.selling_kept hfl)
  | _ => exact market_quiet hfresh hstep rfl rfl rfl rfl fun _ => rfl

end System

end HosTla
