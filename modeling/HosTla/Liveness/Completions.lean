-- SUMMARY: A reclaim, an export, a sale, a rental and a sweep end as one step of all contracts together, when nothing else happens.
import HosTla.Liveness.Undisturbed
import HosTla.Safety.Gates
import HosTla.Safety.Reclaims
import HosTla.Safety.Rollbacks

/-!
# Completions

A call that the registry accepts opens a chain of receipts on the manager, the locker and the
tokens. Left to itself the chain ends, and the state it ends in is given as one update of the
state before the call. Every receipt is taken to succeed, for want of neither gas nor funds,
and every token to keep to its books.
-/

namespace HosTla

open Foundation

namespace Chain

variable {c : Chain} {id : ℕ} {a : AccountId}

/-- What the token says of the account fits the width of a balance. -/
def Fits (c : Chain) (a : AccountId) (tokens : List AccountId) : Prop :=
  ∀ token ∈ tokens, c.ftBalances token a ≤ u128Max

def Empty (c : Chain) (a : AccountId) (tokens : List AccountId) : Prop :=
  ∀ token ∈ tokens, c.ftBalances token a = 0

instance (c : Chain) (a : AccountId) (tokens : List AccountId) : Decidable (c.Empty a tokens) :=
  inferInstanceAs (Decidable (∀ token ∈ tokens, c.ftBalances token a = 0))

/-- A call was accepted: it paid the deposit, the registry sent some of it on, and the chain
of the call took up an id. -/
def called (c : Chain) (deposit sent : ℕ) : Chain :=
  { c with
    balance := c.balance + deposit - sent
    nextId := c.nextId + 1 }

theorem accept_eq {deposit sent : ℕ} {r : TlaRegistry} {p : Promise}
    (hsent : p.attachedDeposit = sent) :
    c.accept deposit (.withPromise r p) =
      ({ c.called deposit sent with registry := r } : Chain).setFlight c.nextId p.flight := by
  subst hsent
  rfl

/-! ## What the tokens say -/

theorem honest_saysZero (token : AccountId) :
    (c.replyResult token a .honest).saysZero = true ↔ c.ftBalances token a = 0 := by
  constructor
  · exact eq_zero_of_saysZero_encode
  · intro hzero
    simp only [replyResult, hzero]
    decide

/-- Where the balances fit, the check of a reclaim gives a verdict on what the tokens say. -/
theorem exists_reclaimBlockReason {tokens : List AccountId} (hfit : c.Fits a tokens) :
    ∃ reason, reclaimBlockReason (tokens.map fun token => c.replyResult token a .honest) tokens =
      .ok reason ∧ (reason = none ↔ c.Empty a tokens) := by
  have hverdict : ∃ reason, reclaimBlockReason
      (tokens.map fun token => c.replyResult token a .honest) tokens = .ok reason := by
    induction tokens with
    | nil => exact ⟨none, rfl⟩
    | cons token tokens ih =>
      obtain ⟨reason, hreason⟩ := ih fun t ht => hfit t (List.mem_cons_of_mem _ ht)
      have hdecode : decodeU128 (encodeU128 (c.ftBalances token a)) =
          some (c.ftBalances token a) :=
        decodeU128_encodeU128.mpr ⟨rfl, hfit token List.mem_cons_self⟩
      simp only [List.map_cons, reclaimBlockReason, replyResult, PromiseResult.checked]
      split
      · rename_i bytes hbytes
        split at hbytes
        · cases hbytes
        · cases hbytes
          simp only [hdecode]
          split
          · exact ⟨_, rfl⟩
          · exact ⟨reason, hreason⟩
      · exact ⟨_, rfl⟩
      · exact ⟨_, rfl⟩
  obtain ⟨reason, hreason⟩ := hverdict
  refine ⟨reason, hreason, ?_⟩
  have hnone := @reclaimBlockReason_eq_none
    (tokens.map fun token => c.replyResult token a .honest) tokens
  rw [hreason, Except.ok.injEq] at hnone
  rw [hnone, List.length_map, and_iff_right (Nat.le_refl _), List.forall_mem_map]
  exact forall₂_congr fun token _ => honest_saysZero token

/-! ## Reclaims -/

/-- The account of `name` was reclaimed. The deletion takes up an id of its own. -/
def reclaimed (c : Chain) (a tlaId : AccountId) (name : Str) : Chain :=
  { c.setAccount a .absent with
    registry := c.registry.removeSubAccount tlaId (subAccountKey tlaId name)
    nextId := c.nextId + 1 }

theorem inevitable_finalize {p : PendingReclaim} {l : SubAccountLocker}
    {accessKeys : List PublicKey} (hfree : c.flights.get id = none)
    (hlocker : c.accounts a = .locker l accessKeys) (hregistry : l.registry = c.self)
    (hstate : l.state = .held) :
    Inevitable Chain.step (Own id) (· = c.reclaimed a p.tlaId p.name)
      (c.setFlight id (.finalizeCall a p)) := by
  have hfinalize : l.finalizeDelete c.self = .ok () :=
    SubAccountLocker.finalizeDelete_eq_ok.mpr ⟨hregistry.symm, hstate⟩
  -- The locker sends the deletion to itself.
  let asked : Chain := { c with nextId := c.nextId + 1 }
  have hcall : c.advance id true (.finalizeCall a p) =
      some (asked.setFlight id (.deleteAccount a p c.nextId)) := by
    simp only [advance, advanceFinalizeCall, hlocker, hfinalize]
    rfl
  have hdelete : asked.advance id true (.deleteAccount a p c.nextId) =
      some ((asked.setAccount a .absent).setFlight id (.reclaimFinalized p true)) := by
    have hexists : asked.accounts a ≠ .absent := fun habsent => by
      cases hlocker.symm.trans habsent
    simp only [advance, advanceDeleteAccount]
    rw [if_pos ⟨trivial, hexists⟩]
    rfl
  refine inevitable_advance (fun _ _ => rfl) rfl hcall ?_
  refine inevitable_advance (fun _ _ => rfl) rfl hdelete ?_
  have hcallback : (Flight.reclaimFinalized p true).callback c.registry =
      some (.ok (.of (c.registry.removeSubAccount p.tlaId p.key))) := rfl
  exact inevitable_last (c := asked.setAccount a .absent) hfree (fun _ _ => rfl) hcallback rfl

/-- The check of a reclaim, on what the tokens say: it goes on, or it ends the chain. -/
theorem inevitable_reclaim {p : PendingReclaim} {l : SubAccountLocker}
    {accessKeys : List PublicKey} {tokens : List AccountId} (hfree : c.flights.get id = none)
    (hlocker : c.accounts a = .locker l accessKeys) (hregistry : l.registry = c.self)
    (hstate : l.state = .held) (ha : a.chars = p.key) (hfit : c.Fits a tokens) :
    Inevitable Chain.step (Own id)
      (· = if c.Empty a tokens then c.reclaimed a p.tlaId p.name else c)
      (c.setFlight id (.reclaimQueries a p tokens (tokens.map fun _ => none))) := by
  obtain ⟨reason, hreason, hempty⟩ := exists_reclaimBlockReason hfit
  refine inevitable_queries (.reclaimQueries a p tokens) ?_ (fun _ _ _ => rfl)
    (fun _ _ _ _ => rfl) ?_ (honest_none a tokens)
  · intro r answers hopen
    simp only [Flight.callback, hopen, Option.map_none]
  · intro answers hcollect hquery
    have hparse : AccountId.parse p.key = some a := AccountId.parse_eq_some.mpr ha
    cases reason with
    | none =>
      rw [if_pos (hempty.mp rfl)]
      have hcallback : (Flight.reclaimQueries a p tokens answers).callback c.registry =
          some (.ok (.withPromise c.registry (.finalizeDelete a p))) := by
        simp only [Flight.callback, hcollect, Option.map_some, TlaRegistry.onBalancesChecked,
          hreason]
        rw [show subAccountKey p.tlaId p.name = p.key from rfl, hparse]
        rfl
      refine inevitable_callback hquery hcallback ?_
      rw [settle_next rfl rfl]
      exact inevitable_finalize hfree hlocker hregistry hstate
    | some reason =>
      rw [if_neg fun h => by cases hempty.mpr h]
      have hcallback : (Flight.reclaimQueries a p tokens answers).callback c.registry =
          some (.ok (.of c.registry)) := by
        simp only [Flight.callback, hcollect, Option.map_some, TlaRegistry.onBalancesChecked,
          hreason]
        rfl
      exact inevitable_last hfree hquery hcallback rfl

end Chain

/-- Left to itself, with receipts that succeed and tokens that say the truth, an accepted
reclaim of an account that the locker holds always ends, whatever the order in which the tokens
answer. If the account holds none of the allowlisted tokens, it is deleted, and its entry, its
sale records and its place in the counts are gone. If it holds some, nothing has changed. -/
theorem reclaim_ends {g : Genesis} {c : Chain} (h : c.Reached g) {predecessor : AccountId}
    {reserve : ℕ} {tlaId a : AccountId} {name : Str} {o : Outcome} {l : SubAccountLocker}
    {accessKeys : List PublicKey}
    (hcall : c.callOutcome predecessor 0 reserve (.reclaimFinalize tlaId name) = some o)
    (ha : a.chars = subAccountKey tlaId name) (hlocker : c.accounts a = .locker l accessKeys)
    (hstate : l.state = .held)
    (hfit : c.Fits a c.registry.ftAllowlist.elems) :
    (c.accept 0 o).EndsIn c.nextId
      (if c.Empty a c.registry.ftAllowlist.elems then (c.called 0 0).reclaimed a tlaId name
        else c.called 0 0) := by
  have hfree : c.flights.get c.nextId = none := h.freshIds.get_nextId
  have hregistry : l.registry = c.self := h.loyal.deployed a l accessKeys hlocker
  refine ⟨by split <;> exact hfree, ?_⟩
  cases (Chain.accepted_of_callOutcome hcall).2 with
  | @reclaimFinalize _ subAccount destination _ _ haccount =>
    cases AccountId.chars_injective (haccount.trans ha.symm)
    by_cases hlist : c.registry.ftAllowlist.elems = []
    · have hempty : c.Empty a c.registry.ftAllowlist.elems := fun token htoken => by
        rw [hlist] at htoken
        cases htoken
      rw [if_pos hempty, if_pos hlist]
      exact Chain.inevitable_finalize (c := c.called 0 0) (p := ⟨tlaId, name, destination⟩) hfree
        hlocker hregistry hstate
    · rw [if_neg hlist]
      exact Chain.inevitable_reclaim (c := c.called 0 0) (p := ⟨tlaId, name, destination⟩) hfree
        hlocker hregistry hstate ha hfit
  | configured hop => cases hop
  | resale hop => cases hop

namespace Sample

/-- The account `n.hos` can be reclaimed, and one token is on the list. -/
def due : Chain := after (lapsed ++ [call admin 0 (.addFtAllowlist ft)]) (by decide +kernel)

/-- The locker of `n.hos`. -/
def locker : SubAccountLocker := .new registry ownerKey

end Sample

theorem reclaim_ends_due :
    ∃ o, Sample.due.callOutcome Sample.bob 0 0 (.reclaimFinalize Sample.tla Sample.name) = some o ∧
      (Sample.due.accept 0 o).EndsIn Sample.due.nextId
        ((Sample.due.called 0 0).reclaimed Sample.sub Sample.tla Sample.name) := by
  have hcall : (Sample.due.callOutcome Sample.bob 0 0
    (.reclaimFinalize Sample.tla Sample.name)).isSome = true := by decide +kernel
  obtain ⟨o, ho⟩ := Option.isSome_iff_exists.mp hcall
  have hreached : Sample.due.Reached Sample.genesis := Sample.reached _ _
  have hlocker : Sample.due.accounts Sample.sub = .locker Sample.locker [] := by decide +kernel
  have hempty : Sample.due.Empty Sample.sub Sample.due.registry.ftAllowlist.elems := by
    decide +kernel
  have hfit : Sample.due.Fits Sample.sub Sample.due.registry.ftAllowlist.elems :=
    fun token htoken => by rw [hempty token htoken]; exact Nat.zero_le _
  have hends := reclaim_ends hreached ho (by decide) hlocker rfl hfit
  rw [if_pos hempty] at hends
  exact ⟨o, ho, hends⟩

/-! ## Exports -/

namespace Chain

variable {c : Chain} {id : ℕ} {a : AccountId}

/-- The account of `name` was handed to the key of its owner. -/
def exported (c : Chain) (a tlaId : AccountId) (name : Str) (l : SubAccountLocker)
    (accessKeys : List PublicKey) : Chain :=
  { c.setAccount a (.locker { l with state := .exported } (l.ownerKey :: accessKeys)) with
    registry := c.registry.removeSubAccount tlaId (subAccountKey tlaId name)
    nextId := c.nextId + 1 }

theorem inevitable_export {tlaId : AccountId} {name : Str} {l : SubAccountLocker}
    {accessKeys : List PublicKey} {sub : SubAccountEntry} (hfree : c.flights.get id = none)
    (hlocker : c.accounts a = .locker l accessKeys) (hregistry : l.registry = c.self)
    (hstate : l.state = .held) (hkey : l.ownerKey ∉ accessKeys)
    (hsub : c.registry.subAccounts.get (subAccountKey tlaId name) = some sub) :
    Inevitable Chain.step (Own id) (· = c.exported a tlaId name l accessKeys)
      (c.setFlight id (.exportCall a tlaId name)) := by
  let asked : Chain := { c with nextId := c.nextId + 1 }
  let exporting : Chain :=
    asked.setAccount a (.locker { l with state := .exporting } accessKeys)
  let added : Chain :=
    asked.setAccount a (.locker { l with state := .exporting } (l.ownerKey :: accessKeys))
  let exported : Chain :=
    asked.setAccount a (.locker { l with state := .exported } (l.ownerKey :: accessKeys))
  have hcall : c.advance id true (.exportCall a tlaId name) =
      some (exporting.setFlight id (.addKey a tlaId name l.ownerKey c.nextId)) := by
    have hexport : l.export_ c.self = .ok ({ l with state := .exporting }, l.ownerKey) :=
      SubAccountLocker.export_eq_ok.mpr ⟨hregistry.symm, hstate, rfl, rfl⟩
    simp only [advance, advanceExportCall, hlocker, hexport]
    rfl
  have hadd : exporting.advance id true (.addKey a tlaId name l.ownerKey c.nextId) =
      some (added.setFlight id (.exportResolved a tlaId name true)) := by
    have hlocker' : exporting.accounts a = .locker { l with state := .exporting } accessKeys :=
      Function.update_self _ _ _
    simp only [advance, advanceAddKey, hlocker']
    rw [if_pos ⟨trivial, hkey⟩]
    simp only [exporting, added, setFlight, setAccount, Function.update_idem]
  have hresolved : added.advance id true (.exportResolved a tlaId name true) =
      some (exported.setFlight id (.exportSettled tlaId name true)) := by
    have hlocker' : added.accounts a =
        .locker { l with state := .exporting } (l.ownerKey :: accessKeys) :=
      Function.update_self _ _ _
    simp only [advance, advanceExportResolved, hlocker', SubAccountLocker.onExportResolved]
    simp only [added, exported, setFlight, setAccount, Function.update_idem, if_true]
  refine inevitable_advance (fun _ _ => rfl) rfl hcall ?_
  refine inevitable_advance (fun _ _ => rfl) rfl hadd ?_
  refine inevitable_advance (fun _ _ => rfl) rfl hresolved ?_
  have hcallback : (Flight.exportSettled tlaId name true).callback exported.registry =
      some (.ok (.of (c.registry.removeSubAccount tlaId (subAccountKey tlaId name)))) := by
    have hthere : c.registry.subAccounts.containsKey (subAccountKey tlaId name) = true :=
      LookupMap.containsKey_eq_true.mpr ⟨sub, hsub⟩
    simp only [Flight.callback, TlaRegistry.onExportSettled]
    rw [if_pos ⟨trivial, hthere⟩]
    rfl
  exact inevitable_last (c := exported) hfree (fun _ _ => rfl) hcallback rfl

end Chain

/-- Left to itself, with receipts that succeed, the one that adds the key among them, an
accepted export always ends with the key of the owner on the account and the locker retired,
and the registry has forgotten the account. -/
theorem export_ends {g : Genesis} {c : Chain} (h : c.Reached g) {predecessor : AccountId}
    {reserve : ℕ} {tlaId a : AccountId} {name : Str} {o : Outcome} {l : SubAccountLocker}
    {accessKeys : List PublicKey}
    (hcall : c.callOutcome predecessor 0 reserve (.exportSubAccount tlaId name) = some o)
    (ha : a.chars = subAccountKey tlaId name) (hlocker : c.accounts a = .locker l accessKeys)
    (hstate : l.state = .held) (hkey : l.ownerKey ∉ accessKeys) :
    (c.accept 0 o).EndsIn c.nextId ((c.called 0 0).exported a tlaId name l accessKeys) := by
  have hfree : c.flights.get c.nextId = none := h.freshIds.get_nextId
  have hregistry : l.registry = c.self := h.loyal.deployed a l accessKeys hlocker
  refine ⟨hfree, ?_⟩
  cases (Chain.accepted_of_callOutcome hcall).2 with
  | exportSubAccount _ hsub haccount =>
    cases AccountId.chars_injective (haccount.trans ha.symm)
    exact Chain.inevitable_export (c := c.called 0 0) hfree hlocker hregistry hstate hkey hsub
  | configured hop => cases hop
  | resale hop => cases hop

theorem export_ends_owned :
    ∃ o, Sample.owned.callOutcome Sample.admin 0 0 (.exportSubAccount Sample.tla Sample.name) =
        some o ∧
      (Sample.owned.accept 0 o).EndsIn Sample.owned.nextId
        ((Sample.owned.called 0 0).exported Sample.sub Sample.tla Sample.name Sample.locker []) := by
  have hcall : (Sample.owned.callOutcome Sample.admin 0 0
    (.exportSubAccount Sample.tla Sample.name)).isSome = true := by decide +kernel
  obtain ⟨o, ho⟩ := Option.isSome_iff_exists.mp hcall
  have hlocker : Sample.owned.accounts Sample.sub = .locker Sample.locker [] := by decide +kernel
  exact ⟨o, ho, export_ends Sample.owned_reached ho (by decide) hlocker rfl List.not_mem_nil⟩

/-! ## Sales -/

/-- The price the buyer has to pay: that of an offer bound to the buyer, or else that of the
listing. -/
def TlaRegistry.Asks (r : TlaRegistry) (key : Str) (buyer : AccountId) (price : ℕ) : Prop :=
  (∃ offer, r.acceptedOffers.get key = some offer ∧ offer.buyer = buyer ∧ offer.price = price) ∨
    (∀ offer, r.acceptedOffers.get key = some offer → offer.buyer ≠ buyer) ∧
      ∃ listing, r.listings.get key = some listing ∧ listing.price = price

/-- The entry passed to the buyer, and the price was split. -/
def TlaRegistry.sold (r : TlaRegistry) (b : PendingBuy) (sub : SubAccountEntry) : TlaRegistry :=
  { r with
    totalRevenue := satAdd u128Max r.totalRevenue (r.resaleCommission b.price)
    pendingRefunds := (r.ledger.creditAll u128Max (r.saleCredits b sub.owner)).pending
    totalPendingRefunds := (r.ledger.creditAll u128Max (r.saleCredits b sub.owner)).total
    subAccounts := r.subAccounts.insert b.key { sub with
      owner := b.buyer
      mainWallet := b.buyer }
    listings := r.listings.remove b.key
    acceptedOffers := r.acceptedOffers.remove b.key }

theorem Locked.asks {r : TlaRegistry} {key : Str} {buyer : AccountId} {deposit price : ℕ}
    {listings : LookupMap Str Listing} {acceptedOffers : LookupMap Str AcceptedOffer}
    (h : Locked r key buyer deposit listings acceptedOffers price) :
    r.Asks key buyer price ∧ price ≤ deposit := by
  cases h with
  | offer hoffer hbuyer hpaid => exact ⟨.inl ⟨_, hoffer, hbuyer, rfl⟩, hpaid⟩
  | listing hother hlisting hpaid => exact ⟨.inr ⟨hother, _, hlisting, rfl⟩, hpaid⟩

/-- The lock goes with the record that carries it. -/
theorem Locked.sold {r : TlaRegistry} {b : PendingBuy} {sub : SubAccountEntry}
    {listings : LookupMap Str Listing} {acceptedOffers : LookupMap Str AcceptedOffer} {price : ℕ}
    (h : Locked r b.key b.buyer b.deposit listings acceptedOffers price) :
    ({ r with listings, acceptedOffers } : TlaRegistry).sold b sub = r.sold b sub := by
  cases h with
  | offer | listing =>
    unfold TlaRegistry.sold
    rw [LookupMap.remove_overwrite]
    rfl

namespace Chain

variable {c : Chain} {id : ℕ} {a : AccountId}

/-- The account of a sale was handed over: the locker has the key of the buyer. -/
def handedOver (c : Chain) (a : AccountId) (b : PendingBuy) (sub : SubAccountEntry)
    (l : SubAccountLocker) (accessKeys : List PublicKey) : Chain :=
  { c.setAccount a (.locker { l with ownerKey := b.newOwnerKey } accessKeys) with
    registry := c.registry.sold b sub }

theorem inevitable_transfer {b : PendingBuy} {l : SubAccountLocker} {accessKeys : List PublicKey}
    {sub : SubAccountEntry} (hfree : c.flights.get id = none)
    (hlocker : c.accounts a = .locker l accessKeys) (hregistry : l.registry = c.self)
    (hstate : l.state = .held) (hsub : c.registry.subAccounts.get b.key = some sub) :
    Inevitable Chain.step (Own id) (· = c.handedOver a b sub l accessKeys)
      (c.setFlight id (.transferCall a b)) := by
  let transferred : Chain := c.setAccount a (.locker { l with ownerKey := b.newOwnerKey } accessKeys)
  have hcall : c.advance id true (.transferCall a b) =
      some (transferred.setFlight id (.sold b true)) := by
    have htransfer : l.transfer c.self b.newOwnerKey = .ok { l with ownerKey := b.newOwnerKey } :=
      SubAccountLocker.transfer_eq_ok.mpr ⟨hregistry.symm, hstate, rfl⟩
    simp only [advance, advanceTransferCall, transferredLocker, hlocker, htransfer]
    rfl
  refine inevitable_advance (fun _ _ => rfl) rfl hcall ?_
  obtain ⟨o, ho⟩ : ∃ o, c.registry.onSubAccountSold true b.tlaId b.name b.buyer b.price b.deposit =
      .ok o := by
    simp only [TlaRegistry.onSubAccountSold]
    split
    · split <;> exact ⟨_, rfl⟩
    · exact ⟨_, rfl⟩
  have hcallback : (Flight.sold b true).callback transferred.registry = some (.ok o) :=
    congrArg some ho
  cases settled_of_sold ho with
  | sold hsub' =>
    cases hsub.symm.trans hsub'
    exact inevitable_last (c := transferred) hfree (fun _ _ => rfl) hcallback rfl
  | saleVoid hnone => cases hsub.symm.trans hnone

/-- The check of a sale, on what the tokens say. -/
theorem inevitable_buy {b : PendingBuy} {l : SubAccountLocker} {accessKeys : List PublicKey}
    {sub : SubAccountEntry} {tokens : List AccountId} (hfree : c.flights.get id = none)
    (hlocker : c.accounts a = .locker l accessKeys) (hregistry : l.registry = c.self)
    (hstate : l.state = .held) (hsub : c.registry.subAccounts.get b.key = some sub)
    (ha : a.chars = b.key) :
    Inevitable Chain.step (Own id)
      (· = if c.Empty a tokens then c.handedOver a b sub l accessKeys
        else { c with registry := (c.registry.aborted b).registry })
      (c.setFlight id (.buyQueries a b tokens (tokens.map fun _ => none))) := by
  have hempty : saleBlockReason (tokens.map fun token => c.replyResult token a .honest) tokens =
      none ↔ c.Empty a tokens := by
    rw [saleBlockReason_eq_none, List.length_map, and_iff_right rfl, List.forall_mem_map]
    exact forall₂_congr fun token _ => honest_saysZero token
  refine inevitable_queries (.buyQueries a b tokens) ?_ (fun _ _ _ => rfl)
    (fun _ _ _ _ => rfl) ?_ (honest_none a tokens)
  · intro r answers hopen
    simp only [Flight.callback, hopen, Option.map_none]
  · intro answers hcollect hquery
    have hparse : AccountId.parse (subAccountKey b.tlaId b.name) = some a :=
      AccountId.parse_eq_some.mpr ha
    cases hreason : saleBlockReason (tokens.map fun token => c.replyResult token a .honest)
        tokens with
    | none =>
      rw [if_pos (hempty.mp hreason)]
      have hcallback : (Flight.buyQueries a b tokens answers).callback c.registry =
          some (.ok (.withPromise c.registry (.settleTransfer a b))) := by
        simp only [Flight.callback, hcollect, Option.map_some, TlaRegistry.onBuyBalancesChecked,
          hreason, hparse]
        rfl
      refine inevitable_callback hquery hcallback ?_
      rw [settle_next rfl rfl]
      exact inevitable_transfer hfree hlocker hregistry hstate hsub
    | some reason =>
      rw [if_neg fun h => by rw [hempty.mpr h] at hreason; cases hreason]
      have hcallback : (Flight.buyQueries a b tokens answers).callback c.registry =
          some (.ok (c.registry.aborted b)) := by
        simp only [Flight.callback, hcollect, Option.map_some, TlaRegistry.onBuyBalancesChecked,
          hreason]
        rfl
      exact inevitable_last hfree hquery hcallback rfl

end Chain

/-- Left to itself, with receipts that succeed and tokens that say the truth, an accepted
purchase of an account that the locker holds always ends in one of two ways. If the account holds
none of the allowlisted tokens, the locker has the key of the buyer, the entry is the buyer's, the
price is split between the seller and the registry, and no sale record is left. If it holds some,
the registry is as before the call but for the deposit, which waits for the buyer. -/
theorem sale_ends {g : Genesis} {c : Chain} (h : c.Reached g) {buyer tlaId a : AccountId}
    {deposit reserve : ℕ} {name : Str} {newOwnerKey : PublicKey} {o : Outcome}
    {l : SubAccountLocker} {accessKeys : List PublicKey}
    (hcall : c.callOutcome buyer deposit reserve (.buySubAccount tlaId name newOwnerKey) = some o)
    (ha : a.chars = subAccountKey tlaId name) (hlocker : c.accounts a = .locker l accessKeys)
    (hstate : l.state = .held) :
    ∃ price sub, c.registry.subAccounts.get (subAccountKey tlaId name) = some sub ∧
      c.registry.Asks (subAccountKey tlaId name) buyer price ∧ price ≤ deposit ∧
      (c.accept deposit o).EndsIn c.nextId
        (if c.Empty a c.registry.ftAllowlist.elems then
          (c.called deposit 0).handedOver a ⟨tlaId, name, buyer, newOwnerKey, price, deposit⟩ sub l
            accessKeys
        else { c.called deposit 0 with registry := c.registry.addPendingRefund buyer deposit }) := by
  have hfree : c.flights.get c.nextId = none := h.freshIds.get_nextId
  have hregistry : l.registry = c.self := h.loyal.deployed a l accessKeys hlocker
  have ho := (Chain.accepted_of_callOutcome hcall).2
  obtain ⟨b', ⟨q, hq, hb'⟩, -, -, hback⟩ := ho.clearSettling
  cases ho with
  | @buySubAccount _ seller subAccount _ _ listings acceptedOffers price _ _ hsell hlock haccount =>
    cases AccountId.chars_injective (haccount.trans ha.symm)
    obtain ⟨-, sub, -, -, -, hsub, -⟩ := TlaRegistry.assertSellable_eq_ok.mp hsell
    let b : PendingBuy := ⟨tlaId, name, buyer, newOwnerKey, price, deposit⟩
    let r : TlaRegistry := { c.registry with listings, acceptedOffers }
    let locked : Chain := { c.called deposit 0 with registry := r }
    have hb : b' = b := by
      cases hq
      split at hb' <;> cases hb' <;> rfl
    subst hb
    have hsold : r.sold b sub = c.registry.sold b sub := hlock.sold
    have haborted : (r.aborted b).registry = c.registry.addPendingRefund buyer deposit := by
      have habort : (r.aborted b).registry =
        (r.clearSettling b.key).addPendingRefund buyer deposit := rfl
      rw [habort]
      exact congrArg (fun r => r.addPendingRefund buyer deposit) hback
    refine ⟨price, sub, hsub, hlock.asks.1, hlock.asks.2, ?_⟩
    refine ⟨by split <;> exact hfree, ?_⟩
    have hhanded : (c.called deposit 0).handedOver a b sub l accessKeys =
        locked.handedOver a b sub l accessKeys := by
      simp only [Chain.handedOver, locked, hsold]
      rfl
    by_cases hlist : c.registry.ftAllowlist.elems = []
    · have hempty : c.Empty a c.registry.ftAllowlist.elems := fun token htoken => by
        rw [hlist] at htoken
        cases htoken
      rw [if_pos hempty, if_pos hlist, hhanded]
      exact Chain.inevitable_transfer (c := locked) hfree hlocker hregistry hstate hsub
    · rw [if_neg hlist, hhanded, ← haborted]
      exact Chain.inevitable_buy (c := locked) hfree hlocker hregistry hstate hsub ha
  | configured hop => cases hop
  | resale hop => cases hop

/-- Alice asks 5 for `n.hos`. -/
def Sample.forSale : Chain := Sample.after Sample.onSale (by decide +kernel)

theorem sale_ends_listed :
    ∃ o price sub, Sample.forSale.callOutcome Sample.bob 5 0
        (.buySubAccount Sample.tla Sample.name Sample.otherKey) = some o ∧ price ≤ 5 ∧
      (Sample.forSale.accept 5 o).EndsIn Sample.forSale.nextId
        ((Sample.forSale.called 5 0).handedOver Sample.sub
          ⟨Sample.tla, Sample.name, Sample.bob, Sample.otherKey, price, 5⟩ sub Sample.locker []) := by
  have hcall : (Sample.forSale.callOutcome Sample.bob 5 0
    (.buySubAccount Sample.tla Sample.name Sample.otherKey)).isSome = true := by decide +kernel
  obtain ⟨o, ho⟩ := Option.isSome_iff_exists.mp hcall
  have hreached : Sample.forSale.Reached Sample.genesis := Sample.reached _ _
  have hlocker : Sample.forSale.accounts Sample.sub = .locker Sample.locker [] := by decide +kernel
  have hempty : Sample.forSale.Empty Sample.sub Sample.forSale.registry.ftAllowlist.elems := by
    decide +kernel
  obtain ⟨price, sub, -, -, hpaid, hends⟩ := sale_ends hreached ho (by decide) hlocker rfl
  rw [if_pos hempty] at hends
  exact ⟨o, price, sub, ho, hpaid, hends⟩

/-! ## Rentals -/

/-- The creation of a rental was confirmed. -/
def TlaRegistry.confirmed (r : TlaRegistry) (p : PendingRent) : TlaRegistry :=
  let refund := excessCredit p.payer
    (p.attached - satAdd u128Max p.rent r.feeConfig.accountCreationDeposit)
  { r with
    subAccountCount := satAdd u64Max r.subAccountCount 1
    totalRevenue := satAdd u128Max r.totalRevenue p.rent
    pendingRefunds := (r.ledger.creditAll u128Max refund).pending
    totalPendingRefunds := (r.ledger.creditAll u128Max refund).total }

namespace Chain

variable {c : Chain} {id : ℕ} {a : AccountId}

/-- The account of a rental was created with a fresh locker. -/
def created (c : Chain) (a : AccountId) (p : PendingRent) : Chain :=
  { c.setAccount a (.locker (.new c.self p.ownerKey) []) with registry := c.registry.confirmed p }

theorem inevitable_create {p : PendingRent} {sub : SubAccountEntry}
    (hfree : c.flights.get id = none) (hmanager : c.managers p.tlaId = some ⟨c.self⟩)
    (ha : a.chars = p.key) (habsent : c.accounts a = .absent)
    (hsub : c.registry.subAccounts.get p.key = some sub) :
    Inevitable Chain.step (Own id) (· = c.created a p) (c.setFlight id (.createCall p)) := by
  let l : SubAccountLocker := .new c.self p.ownerKey
  let deployed : Chain := c.setAccount a (.locker l [])
  have hcall : c.advance id true (.createCall p) = some (c.setFlight id (.createBatch p a l)) := by
    have hbatch : c.managerBatch p = some (a, l) := by
      have hcreate : TlaManager.createSubAccount ⟨c.self⟩ c.self p.tlaId p.name p.ownerKey =
          .ok (a, l) := TlaManager.createSubAccount_eq_ok.mpr ⟨rfl, ha, rfl⟩
      simp only [managerBatch, hmanager, Option.bind_some, hcreate]
      rfl
    simp only [advance, advanceCreateCall, hbatch, if_true]
  have hbatch : c.advance id true (.createBatch p a l) =
      some (deployed.setFlight id (.created p true)) := by
    simp only [advance, advanceCreateBatch]
    rw [if_pos ⟨trivial, habsent⟩]
    rfl
  refine inevitable_advance (fun _ _ => rfl) rfl hcall ?_
  refine inevitable_advance (fun _ _ => rfl) rfl hbatch ?_
  obtain ⟨o, ho⟩ : ∃ o, c.registry.onSubAccountCreated true p.tlaId p.name p.payer p.rent
      p.attached = .ok o := by
    have hthere : c.registry.subAccounts.get (subAccountKey p.tlaId p.name) = some sub := hsub
    simp only [TlaRegistry.onSubAccountCreated, if_true, Outcome.refundExcess_of, hthere]
    exact ⟨_, rfl⟩
  have hcallback : (Flight.created p true).callback deployed.registry = some (.ok o) :=
    congrArg some ho
  cases settled_of_created ho with
  | created =>
    exact inevitable_last (c := deployed) hfree (fun _ _ => rfl) hcallback rfl

end Chain

/-- Left to itself, with receipts that succeed and a creation deposit that pays for the
account, an accepted rental on a TLA whose manager is this registry's always ends with the
account created and its locker in the hands of the renter's key, and with the rent paid and
what was paid too much waiting for the payer. -/
theorem rental_ends {g : Genesis} {c : Chain} (h : c.Reached g)
    {payer tlaId mainWallet a : AccountId} {deposit reserve : ℕ} {name : Str}
    {ownerKey : PublicKey} {o : Outcome}
    (hcall : c.callOutcome payer deposit reserve
      (.rentSubAccount tlaId name ownerKey mainWallet) = some o)
    (hmanager : c.managers tlaId = some ⟨c.self⟩) (ha : a.chars = subAccountKey tlaId name)
    (habsent : c.accounts a = .absent) :
    ∃ tla rent, c.registry.tlas.get tlaId = some tla ∧
      rent = calculateRent tla tlaId name c.registry.feeConfig ∧
      o.registry.subAccounts.get (subAccountKey tlaId name) = some
        ⟨payer, tlaId, mainWallet, c.now, satAdd u64Max c.now oneYearNs, none⟩ ∧
      (c.accept deposit o).EndsIn c.nextId
        (({ c.called deposit c.registry.feeConfig.accountCreationDeposit with
            registry := o.registry } : Chain).created a
          ⟨tlaId, name, ownerKey, c.registry.feeConfig.accountCreationDeposit, payer, rent, deposit⟩) := by
  have hfree : c.flights.get c.nextId = none := h.freshIds.get_nextId
  have ho := (Chain.accepted_of_callOutcome hcall).2
  cases ho with
  | @rentSubAccount _ _ _ _ tla rent _ _ _ _ htla _ _ hrent _ _ =>
    refine ⟨tla, rent, htla, hrent, LookupMap.get_insert_self _ _ _, ?_⟩
    refine ⟨hfree, ?_⟩
    rw [Chain.accept_eq rfl]
    exact Chain.inevitable_create hfree hmanager ha habsent (LookupMap.get_insert_self _ _ _)
  | configured hop => cases hop
  | resale hop => cases hop

theorem rental_ends_opened :
    ∃ o rent, Sample.opened.callOutcome Sample.alice (100 * oneNear) 0
        (.rentSubAccount Sample.tla Sample.name Sample.ownerKey Sample.alice) = some o ∧
      (Sample.opened.accept (100 * oneNear) o).EndsIn Sample.opened.nextId
        (({ Sample.opened.called (100 * oneNear)
              Sample.opened.registry.feeConfig.accountCreationDeposit with
            registry := o.registry } : Chain).created Sample.sub
          ⟨Sample.tla, Sample.name, Sample.ownerKey,
            Sample.opened.registry.feeConfig.accountCreationDeposit, Sample.alice, rent,
            100 * oneNear⟩) := by
  have hcall : (Sample.opened.callOutcome Sample.alice (100 * oneNear) 0
    (.rentSubAccount Sample.tla Sample.name Sample.ownerKey Sample.alice)).isSome = true := by
    decide +kernel
  obtain ⟨o, ho⟩ := Option.isSome_iff_exists.mp hcall
  have hmanager : Sample.opened.managers Sample.tla = some ⟨Sample.opened.self⟩ := by
    decide +kernel
  have habsent : Sample.opened.accounts Sample.sub = .absent := by decide +kernel
  obtain ⟨tla, rent, -, -, -, hends⟩ :=
    rental_ends Sample.opened_reached ho hmanager (by decide) habsent
  exact ⟨o, rent, ho, hends⟩

/-! ## Sweeps -/

namespace Chain

variable {c : Chain} {id : ℕ} {a : AccountId}

/-- All of a token the account holds was sent to `destination`. -/
def swept (c : Chain) (a ft destination : AccountId) : Chain :=
  c.transferFt ft a destination (c.ftBalances ft a)

theorem inevitable_sweep {ft destination : AccountId} {l : SubAccountLocker}
    {accessKeys : List PublicKey} (hfree : c.flights.get id = none)
    (hlocker : c.accounts a = .locker l accessKeys) (hregistry : l.registry = c.self)
    (hstate : l.state = .held) (hfit : c.ftBalances ft a ≤ u128Max) :
    Inevitable Chain.step (Own id)
      (· = if c.ftBalances ft a = 0 then c else c.swept a ft destination)
      (c.setFlight id (.sweepCall a ft destination)) := by
  have hcall : c.advance id true (.sweepCall a ft destination) =
      some (c.setFlight id (.sweepBalance a ft destination)) := by
    have hsweep : l.sweepFt c.self = .ok () := by
      simp [SubAccountLocker.sweepFt, hregistry, hstate]
    simp only [advance, advanceSweep, hlocker, hsweep]
    rfl
  have hanswer (index : ℕ) : (c.setFlight id (.sweepBalance a ft destination)).advanceAnswer id
      index .honest (.sweepBalance a ft destination) =
        some (c.setFlight id (.sweepQueried a ft destination (c.replyResult ft a .honest))) := by
    simp only [advanceAnswer, setFlight_setFlight]
    rfl
  refine inevitable_advance (fun _ _ => rfl) rfl hcall ?_
  refine inevitable_answer rfl rfl hanswer ?_
  -- The locker reads the balance off the answer, and stops at zero.
  have hdecode : decodeU128 (encodeU128 (c.ftBalances ft a)) = some (c.ftBalances ft a) :=
    decodeU128_encodeU128.mpr ⟨rfl, hfit⟩
  split
  · rename_i hzero
    have hbalance : SubAccountLocker.afterBalanceQuery (c.replyResult ft a .honest) = none := by
      simp only [replyResult, SubAccountLocker.afterBalanceQuery, hdecode]
      rw [if_pos hzero]
    have hqueried : c.advance id true
        (.sweepQueried a ft destination (c.replyResult ft a .honest)) = some (c.dropFlight id) := by
      simp only [advance, advanceSweep, hlocker, hbalance]
    exact inevitable_drop hfree (fun _ _ => rfl) rfl hqueried rfl
  · rename_i hpos
    have hbalance : SubAccountLocker.afterBalanceQuery (c.replyResult ft a .honest) =
        some (c.ftBalances ft a) := by
      simp only [replyResult, SubAccountLocker.afterBalanceQuery, hdecode, if_neg hpos]
    have hqueried : c.advance id true
        (.sweepQueried a ft destination (c.replyResult ft a .honest)) =
          some (c.setFlight id (.sweepDeposit a ft destination (c.ftBalances ft a))) := by
      simp only [advance, advanceSweep, hlocker, hbalance]
    have hdeposited : c.advance id true
        (.sweepDeposited a ft destination (c.ftBalances ft a) true) =
          some (c.setFlight id (.sweepTransfer a ft destination (c.ftBalances ft a))) := by
      simp only [advance, advanceSweep, hlocker, if_true]
    have htransfer : c.advance id true (.sweepTransfer a ft destination (c.ftBalances ft a)) =
        some ((c.swept a ft destination).dropFlight id) := by
      simp only [advance, advanceSweep]
      rw [if_pos ⟨trivial, Nat.le_refl _⟩]
      rfl
    refine inevitable_advance (fun _ _ => rfl) rfl hqueried ?_
    refine inevitable_advance (fun _ _ => rfl) rfl rfl ?_
    refine inevitable_advance (fun _ _ => rfl) rfl hdeposited ?_
    exact inevitable_drop hfree (fun _ _ => rfl) rfl htransfer rfl

end Chain

/-- Left to itself, with receipts that succeed, those of the token among them, and a token that
says the truth, an accepted sweep of an account that the locker holds always ends with all the
account had of the token sent to the wallet of the entry, and nothing else changed. -/
theorem sweep_ends {g : Genesis} {c : Chain} (h : c.Reached g) {predecessor : AccountId}
    {reserve : ℕ} {tlaId a ft : AccountId} {name : Str} {o : Outcome} {l : SubAccountLocker}
    {accessKeys : List PublicKey}
    (hcall : c.callOutcome predecessor 0 reserve (.reclaimSweepFt tlaId name ft) = some o)
    (ha : a.chars = subAccountKey tlaId name) (hlocker : c.accounts a = .locker l accessKeys)
    (hstate : l.state = .held) (hfit : c.ftBalances ft a ≤ u128Max) :
    ∃ sub, c.registry.subAccounts.get (subAccountKey tlaId name) = some sub ∧
      (c.accept 0 o).EndsIn c.nextId
        (if c.ftBalances ft a = 0 then c.called 0 0
          else (c.called 0 0).swept a ft sub.mainWallet) := by
  have hfree : c.flights.get c.nextId = none := h.freshIds.get_nextId
  have hregistry : l.registry = c.self := h.loyal.deployed a l accessKeys hlocker
  cases (Chain.accepted_of_callOutcome hcall).2 with
  | @reclaimSweepFt _ _ subAccount destination _ _ _ haccount _ hdest =>
    cases AccountId.chars_injective (haccount.trans ha.symm)
    simp only [TlaRegistry.reclaimDestination, bind_eq_ok, okOr_eq_ok, pure_eq_ok] at hdest
    obtain ⟨sub, hsub, -, -, -, -, rfl⟩ := hdest
    refine ⟨sub, hsub, by split <;> exact hfree, ?_⟩
    exact Chain.inevitable_sweep (c := c.called 0 0) hfree hlocker hregistry hstate hfit
  | configured hop => cases hop
  | resale hop => cases hop

/-- The account `n.hos` can be reclaimed, and it holds five units of the token. -/
def Sample.rich : Chain :=
  Sample.after (Sample.lapsed ++ [Sample.call Sample.admin 0 (.addFtAllowlist Sample.ft),
    .setFtBalance Sample.ft Sample.sub 5]) (by decide +kernel)

theorem sweep_ends_rich :
    ∃ (o : Outcome) (sub : SubAccountEntry), Sample.rich.callOutcome Sample.bob 0 0
        (.reclaimSweepFt Sample.tla Sample.name Sample.ft) = some o ∧
      (Sample.rich.accept 0 o).EndsIn Sample.rich.nextId
        ((Sample.rich.called 0 0).swept Sample.sub Sample.ft sub.mainWallet) := by
  have hcall : (Sample.rich.callOutcome Sample.bob 0 0
    (.reclaimSweepFt Sample.tla Sample.name Sample.ft)).isSome = true := by decide +kernel
  obtain ⟨o, ho⟩ := Option.isSome_iff_exists.mp hcall
  have hreached : Sample.rich.Reached Sample.genesis := Sample.reached _ _
  have hlocker : Sample.rich.accounts Sample.sub = .locker Sample.locker [] := by decide +kernel
  have hfive : Sample.rich.ftBalances Sample.ft Sample.sub = 5 := by decide +kernel
  obtain ⟨sub, -, hends⟩ := sweep_ends hreached ho (by decide) hlocker rfl
    (by rw [hfive]; decide)
  rw [if_neg (by rw [hfive]; decide)] at hends
  exact ⟨o, sub, ho, hends⟩

/-! ## Refunds -/

/-- The whole credit of an account was sent to it. -/
def Chain.paidOut (c : Chain) (caller : AccountId) : Chain :=
  { c.called 0 (c.registry.getPendingRefund caller) with
    registry := { c.registry with
      pendingRefunds := c.registry.pendingRefunds.remove caller
      totalPendingRefunds :=
        c.registry.totalPendingRefunds - c.registry.getPendingRefund caller } }

/-- Left to itself, with receipts that succeed, an accepted claim always ends with the caller
paid in full. -/
theorem refund_ends {g : Genesis} {c : Chain} (h : c.Reached g) {caller : AccountId} {reserve : ℕ}
    {o : Outcome} (hcall : c.callOutcome caller 0 reserve .claimRefund = some o) :
    (c.accept 0 o).EndsIn c.nextId (c.paidOut caller) := by
  have hfree : c.flights.get c.nextId = none := h.freshIds.get_nextId
  refine ⟨hfree, ?_⟩
  let amount : ℕ := c.registry.getPendingRefund caller
  cases (Chain.accepted_of_callOutcome hcall).2 with
  | claimRefund =>
    have htransfer : (c.paidOut caller).advance c.nextId true (.refundTransfer caller amount) =
        some ((c.paidOut caller).setFlight c.nextId (.refundSettled caller amount true)) := rfl
    have hcallback : (Flight.refundSettled caller amount true).callback (c.paidOut caller).registry =
        some (.ok (.of (c.paidOut caller).registry)) := rfl
    rw [Chain.accept_eq rfl]
    refine Chain.inevitable_advance (fun _ _ => rfl) rfl htransfer ?_
    exact Chain.inevitable_last (c := c.paidOut caller) hfree (fun _ _ => rfl) hcallback rfl
  | configured hop => cases hop
  | resale hop => cases hop

end HosTla
