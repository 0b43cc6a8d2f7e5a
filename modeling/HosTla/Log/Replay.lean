-- SUMMARY: An indexer that reads nothing but the lines of successful receipts ends with what the registry says.
import HosTla.Chain.Configuration
import HosTla.Log.Lines

/-!
# Replay of the log

`Index` is the part of the registry that its log determines: the switches and lists that
admins set, the TLAs, the mothers, the market as it is published, and the two totals. The
log does not determine the entries of sub-accounts, since a rental that fails names no
account, nor the refunds, since the excess of a payment is credited without an event.

A receipt that fails takes its changes back but keeps its log. So the outcome of a receipt
has to be read along with its lines: a rental that finds its TLA full has by then written
that its caller has a mother.
-/

namespace HosTla

open Foundation Foundation.Json

/-! ## The index -/

structure TlaRow where
  tlaType : TlaType
  premiumCategory : PremiumCategory
  licensee : Option AccountId
  status : TlaStatus
  expiresAt : ℕ
deriving DecidableEq

structure Index where
  paused : Bool
  admins : IterableSet AccountId
  ftAllowlist : IterableSet AccountId
  nftAllowlist : IterableSet AccountId
  caps : LookupMap AccountId UInt32
  tlas : LookupMap AccountId TlaRow
  mothers : LookupMap AccountId AccountId
  listings : LookupMap Str ℕ
  offers : LookupMap Str (AccountId × ℕ)
  subAccountCount : ℕ
  totalRevenue : ℕ

def TlaEntry.row (tla : TlaEntry) : TlaRow where
  tlaType := tla.tlaType
  premiumCategory := tla.premiumCategory
  licensee := tla.licensee
  status := tla.status
  expiresAt := tla.expiresAt

def TlaRegistry.index (r : TlaRegistry) : Index where
  paused := r.paused
  admins := r.admins
  ftAllowlist := r.ftAllowlist
  nftAllowlist := r.nftAllowlist
  caps := r.businessSubCapOverride
  tlas := r.tlas.mapValues TlaEntry.row
  mothers := r.mothers
  listings := r.listings.mapValues Listing.price
  offers := r.acceptedOffers.mapValues fun offer => (offer.buyer, offer.price)
  subAccountCount := r.subAccountCount
  totalRevenue := r.totalRevenue

namespace Index

def earn (i : Index) (amount : ℕ) : Index :=
  { i with totalRevenue := satAdd u128Max i.totalRevenue amount }

/-- The account is no longer on sale. -/
def unlist (i : Index) (key : Str) : Index :=
  { i with listings := i.listings.remove key, offers := i.offers.remove key }

def apply (i : Index) : Event → Index
  | .contractPaused _ => { i with paused := true }
  | .contractUnpaused _ => { i with paused := false }
  | .adminAdded account _ => { i with admins := i.admins.insert account }
  | .adminRemoved account _ => { i with admins := i.admins.remove account }
  | .ftAllowlistAdded token _ => { i with ftAllowlist := i.ftAllowlist.insert token }
  | .ftAllowlistRemoved token _ => { i with ftAllowlist := i.ftAllowlist.remove token }
  | .nftAllowlistAdded token _ => { i with nftAllowlist := i.nftAllowlist.insert token }
  | .nftAllowlistRemoved token _ => { i with nftAllowlist := i.nftAllowlist.remove token }
  | .businessSubCapSet tlaId cap _ =>
    { i with caps := cap.elim (i.caps.remove tlaId) (i.caps.insert tlaId) }
  | .tlaRegistered tlaId tlaType premiumCategory licensee =>
    { i with tlas := i.tlas.insert tlaId ⟨tlaType, premiumCategory, licensee, .registered, 0⟩ }
  | .tlaSuspended tlaId _ =>
    { i with tlas := i.tlas.modify tlaId fun row => { row with status := .suspended } }
  | .tlaUnsuspended tlaId _ =>
    { i with tlas := i.tlas.modify tlaId fun row => { row with status := .active } }
  | .tlaActivated tlaId expiresAt paid =>
    { i with tlas := i.tlas.modify tlaId fun row => { row with status := .active, expiresAt } }.earn
      paid
  | .tlaRenewed tlaId expiresAt paid =>
    { i with tlas := i.tlas.modify tlaId fun row => { row with expiresAt } }.earn paid
  | .subAccountRented _ _ _ rent _ =>
    { i with subAccountCount := satAdd u64Max i.subAccountCount 1 }.earn rent
  | .subAccountRenewed _ _ paid => i.earn paid
  | .withdrawalQueued amount _ => { i with totalRevenue := i.totalRevenue - amount }
  | .motherSet user mother _ => { i with mothers := i.mothers.insert user mother }
  | .motherCleared user _ _ => { i with mothers := i.mothers.remove user }
  | .subAccountListed key price _ => { i with listings := i.listings.insert key price }
  | .subAccountUnlisted key _ => { i with listings := i.listings.remove key }
  | .offerAccepted key buyer price _ => { i with offers := i.offers.insert key (buyer, price) }
  | .offerRevoked key _ => { i with offers := i.offers.remove key }
  | .subAccountSold key _ _ _ _ commission _ => (i.unlist key).earn commission
  | .subAccountReclaimed key _ _ | .subAccountExported key _ =>
    { i.unlist key with subAccountCount := i.subAccountCount - 1 }
  | _ => i

def applyAll (i : Index) (events : List Event) : Index := events.foldl apply i

/-- A line that is no event of the registry is passed over. -/
def readLines (i : Index) (lines : List Str) : Index :=
  lines.foldl (fun i line => (readLine line).elim i i.apply) i

/-- Reading lines is applying the events they were written from. -/
theorem readLines_map (i : Index) (events : List Event) :
    i.readLines (events.map Event.line) = i.applyAll events := by
  induction events generalizing i with
  | nil => rfl
  | cons e events ih =>
    have hline : i.readLines [e.line] = i.apply e := by
      simp only [readLines, List.foldl_cons, List.foldl_nil, Event.readLine_eq, Option.elim_some]
    have hcons : i.readLines ((e :: events).map Event.line) =
        (i.readLines [e.line]).readLines (events.map Event.line) := rfl
    rw [hcons, hline, ih]
    rfl

end Index

/-! ## The log -/

/-- What is on record of a receipt: its outcome and its lines. -/
structure ReceiptLog where
  succeeded : Bool
  lines : List Str

def ReceiptLog.of (succeeded : Bool) (events : List Event) : ReceiptLog :=
  ⟨succeeded, events.map Event.line⟩

/-- Whoever indexes the log reads the lines of the receipts that succeeded. -/
def Index.replay (i : Index) (receipts : List ReceiptLog) : Index :=
  receipts.foldl (fun i receipt => if receipt.succeeded then i.readLines receipt.lines else i) i

theorem Index.replay_append (i : Index) (receipts receipts' : List ReceiptLog) :
    i.replay (receipts ++ receipts') = (i.replay receipts).replay receipts' := List.foldl_append

/-! ## One step -/

/-- The events of the callback the chain waits for, when it runs without a panic. -/
def Flight.events (r : TlaRegistry) : Flight → List Event
  | .created p ok => r.createdEvents ok p
  | .refundSettled caller amount ok =>
    if ok then [] else [.refundPending caller amount .transferFailed]
  | .reclaimQueries _ p allowlist answers =>
    (collectAnswers answers).elim [] fun results =>
      TlaRegistry.balancesCheckedEvents p.key results allowlist
  | .reclaimFinalized p ok =>
    if ok then [.subAccountReclaimed p.key p.tlaId p.destination] else []
  | .exportSettled tlaId name ok =>
    if ok ∧ r.subAccounts.containsKey (subAccountKey tlaId name) then
      [.subAccountExported (subAccountKey tlaId name) tlaId]
    else []
  | .buyQueries _ b allowlist answers =>
    (collectAnswers answers).elim [] fun results =>
      TlaRegistry.buyBalancesCheckedEvents b.key results allowlist
  | .sold b ok => r.soldEvents ok b
  | _ => []

def Op.receiptLog (env : Env) (r : TlaRegistry) (op : Op) : ReceiptLog :=
  match op.run env r with
  | .ok _ => .of true (op.events env r)
  | .error e => .of false (op.failedEvents env r e)

/-- No callback has written a line by the time it panics. -/
def Flight.receiptLog (r : TlaRegistry) (fl : Flight) : Option ReceiptLog :=
  (fl.callback r).map fun
    | .ok _ => .of true (fl.events r)
    | .error _ => .of false []

/-- The log of the receipt of the registry that a step of the chain runs. -/
def Chain.receiptLog (c : Chain) : Label → Option ReceiptLog
  | .call predecessor deposit reserve op =>
    if deposit ≠ 0 ∧ ¬ op.payable then some (.of false [])
    else some (op.receiptLog (c.callEnv predecessor deposit reserve) c.registry)
  | .deliver id _ => (c.flights.get id).bind fun fl => fl.receiptLog c.registry
  | _ => none

/-- The log of a run: its receipts in the order they are run. -/
def log (tr : List (Transition Chain Label)) : List ReceiptLog :=
  tr.filterMap fun t => t.before.receiptLog t.label

section

variable {env : Env} {r : TlaRegistry} {o : Outcome}

theorem Configured.index {op : Op} {r' : TlaRegistry} (h : Configured r op r') :
    r.index.applyAll (op.events env r) = r'.index := by
  cases h with
  | addAdmin =>
    simp only [Op.events]
    split
    · rename_i hknown
      rw [IterableSet.insert_of_mem hknown]
      rfl
    · rfl
  | ftKnown hknown => simp only [Op.events, if_pos hknown]; rfl
  | ftAdded hnew => simp only [Op.events, if_neg hnew]; rfl
  | ftRemoved =>
    simp only [Op.events]
    split
    · rfl
    · rename_i hunknown
      rw [IterableSet.remove_of_notMem hunknown]
      rfl
  | nftKnown hknown => simp only [Op.events, if_pos hknown]; rfl
  | nftAdded hnew => simp only [Op.events, if_neg hnew]; rfl
  | nftRemoved =>
    simp only [Op.events]
    split
    · rfl
    · rename_i hunknown
      rw [IterableSet.remove_of_notMem hunknown]
      rfl
  | _ => rfl

/-- A default mother is set with its event. -/
theorem TlaRegistry.index_ensureMotherDefault (r : TlaRegistry) (user : AccountId) :
    r.index.applyAll (r.motherDefaultEvents user) = (r.ensureMotherDefault user).index := by
  unfold motherDefaultEvents ensureMotherDefault
  split
  · rfl
  · dsimp only
    split <;> rfl

theorem TlaRegistry.index_replaceMother (r : TlaRegistry) (user m : AccountId) :
    (r.replaceMother user m).index =
      if r.mothers.get user = some m then r.index
      else { r.index with mothers := r.mothers.insert user m } := by
  unfold replaceMother
  split
  · rename_i old hold
    simp only [hold, Option.some.injEq]
    split
    · rfl
    · split <;> rfl
  · rename_i hnone
    simp only [hnone, reduceCtorEq, if_false]
    split <;> rfl

theorem index_of_locked {key : Str} {buyer : AccountId} {deposit price : ℕ}
    {listings : LookupMap Str Listing} {acceptedOffers : LookupMap Str AcceptedOffer}
    (h : Locked r key buyer deposit listings acceptedOffers price) :
    ({ r with listings, acceptedOffers } : TlaRegistry).index = r.index := by
  cases h with
  | @offer offer hoffer =>
    have hoffers : (r.acceptedOffers.insert key { offer with settling := true }).mapValues
        (fun offer => (offer.buyer, offer.price)) =
          r.acceptedOffers.mapValues fun offer => (offer.buyer, offer.price) :=
      LookupMap.mapValues_insert_of_get hoffer rfl
    simp only [TlaRegistry.index, hoffers]
  | @listing listing _ hlisting =>
    have hlistings : (r.listings.insert key { listing with settling := true }).mapValues
        Listing.price = r.listings.mapValues Listing.price :=
      LookupMap.mapValues_insert_of_get hlisting rfl
    simp only [TlaRegistry.index, hlistings]

theorem Accepted.index {op : Op} (h : Accepted env r op o) (hop : op.configures = false)
    (hrevenue : r.totalRevenue ≤ u128Max) :
    r.index.applyAll (op.events env r) = o.registry.index := by
  cases h with
  | configured hop' => rw [hop] at hop'; cases hop'
  | resale hop' => cases op <;> first | rfl | cases hop'
  | registerTla =>
    simp only [Op.events, Index.applyAll, List.foldl_cons, List.foldl_nil, Index.apply,
      TlaRegistry.index, Outcome.of, LookupMap.mapValues_insert]
    rfl
  | suspendTla hadmin htla =>
    simp only [Op.events, Index.applyAll, List.foldl_cons, List.foldl_nil, Index.apply,
      TlaRegistry.index, Outcome.of]
    rw [LookupMap.mapValues_update htla]
    rfl
  | unsuspendTla hadmin htla =>
    simp only [Op.events, Index.applyAll, List.foldl_cons, List.foldl_nil, Index.apply,
      TlaRegistry.index, Outcome.of]
    rw [LookupMap.mapValues_update htla]
    rfl
  | activateOpenTla hadmin htla =>
    have hzero : satAdd u128Max r.totalRevenue 0 = r.totalRevenue := Nat.min_eq_left hrevenue
    simp only [Op.events, Index.applyAll, List.foldl_cons, List.foldl_nil, Index.apply,
      Index.earn, TlaRegistry.index, Outcome.of, hzero]
    rw [LookupMap.mapValues_update htla]
    rfl
  | activateTla hpaused hrequired hpaid htla =>
    subst hrequired
    simp only [Op.events, Index.applyAll, List.foldl_cons, List.foldl_nil, Index.apply,
      Index.earn, TlaRegistry.index]
    rw [LookupMap.mapValues_update htla]
    rfl
  | renewTla hpaused hrent htla =>
    subst hrent
    simp only [Op.events, htla, Option.elim_some, Index.applyAll, List.foldl_cons,
      List.foldl_nil, Index.apply, Index.earn, TlaRegistry.index]
    rw [LookupMap.mapValues_update htla]
    rfl
  | renewSubAccount hpaused hsub htime howner hret htla hlife hrent =>
    subst hrent
    simp only [Op.events, hsub, htla, Option.elim_some]
    rfl
  | @setMother newMother =>
    have hindex := r.index_replaceMother env.predecessor newMother
    rw [TlaRegistry.replaceMother_eq] at hindex
    refine Eq.trans ?_ hindex.symm
    simp only [Op.events]
    split <;> rfl
  | adminClearMother hadmin hmother => simp only [Op.events, hmother, Option.elim_some]; rfl
  | rentSubAccount =>
    have hindex := r.index_ensureMotherDefault env.predecessor
    rw [TlaRegistry.ensureMotherDefault_eq] at hindex
    exact hindex
  | listSubAccount | acceptOffer =>
    simp only [Op.events, Index.applyAll, List.foldl_cons, List.foldl_nil, Index.apply,
      TlaRegistry.index, Outcome.of, LookupMap.mapValues_insert]
  | unlistSubAccount | revokeOffer =>
    simp only [Op.events, Index.applyAll, List.foldl_cons, List.foldl_nil, Index.apply,
      TlaRegistry.index, Outcome.of, LookupMap.mapValues_remove]
  | buySubAccount _ _ _ hlock => exact (index_of_locked hlock).symm
  | _ => rfl

theorem TlaRegistry.index_clearSettling (r : TlaRegistry) (key : Str) :
    (r.clearSettling key).index = r.index := by
  have hlistings : (r.listings.modify key fun l => { l with settling := false }).mapValues
      Listing.price = r.listings.mapValues Listing.price := by
    apply LookupMap.mapValues_modify
    intro _
    rfl
  have hoffers : (r.acceptedOffers.modify key fun o => { o with settling := false }).mapValues
      (fun offer => (offer.buyer, offer.price)) =
        r.acceptedOffers.mapValues fun offer => (offer.buyer, offer.price) := by
    apply LookupMap.mapValues_modify
    intro _
    rfl
  simp only [clearSettling, index, hlistings, hoffers]

theorem TlaRegistry.index_aborted (r : TlaRegistry) (b : PendingBuy) :
    (r.aborted b).registry.index = r.index := r.index_clearSettling b.key

/-- The events of a blocked sale or reclaim leave the index as it is. -/
theorem Index.apply_blocked (i : Index) (key : Str) (results : List PromiseResult)
    (allowlist : List AccountId) :
    i.applyAll (TlaRegistry.buyBalancesCheckedEvents key results allowlist) = i := by
  unfold TlaRegistry.buyBalancesCheckedEvents
  split
  · rfl
  · split <;> rfl

theorem Index.apply_checked (i : Index) (key : Str) (results : List PromiseResult)
    (allowlist : List AccountId) :
    i.applyAll (TlaRegistry.balancesCheckedEvents key results allowlist) = i := by
  unfold TlaRegistry.balancesCheckedEvents
  split <;> rfl

theorem Settled.index {fl : Flight} (h : Settled r fl o) :
    r.index.applyAll (fl.events r) = o.registry.index := by
  cases h with
  | created hsub =>
    simp only [Flight.events, TlaRegistry.createdEvents, if_true, hsub, Option.elim_some]
    rfl
  | @reclaimBlocked a p allowlist answers =>
    simp only [Flight.events]
    cases collectAnswers answers with
    | none => rfl
    | some results => exact Index.apply_checked _ _ _ _
  | reclaimCleared hanswers =>
    simp only [Flight.events, hanswers, Option.elim_some]
    exact Index.apply_checked _ _ _ _
  | reclaimed =>
    simp only [Flight.events, if_true, Index.applyAll, List.foldl_cons, List.foldl_nil,
      Index.apply, Index.unlist, TlaRegistry.index, Outcome.of, LookupMap.mapValues_remove]
  | exported hsub =>
    have hkey := LookupMap.containsKey_eq_true.mpr ⟨_, hsub⟩
    simp only [Flight.events, hkey, and_self, if_true, Index.applyAll, List.foldl_cons,
      List.foldl_nil, Index.apply, Index.unlist, TlaRegistry.index, Outcome.of,
      LookupMap.mapValues_remove]
  | exportedAlready hsub =>
    have hkey := LookupMap.containsKey_eq_false.mpr hsub
    simp only [Flight.events, hkey, Bool.false_eq_true, and_false, if_false]
    rfl
  | exportFailed => simp only [Flight.events, Bool.false_eq_true, false_and, if_false]; rfl
  | saleBlocked hanswers =>
    rw [TlaRegistry.index_aborted]
    simp only [Flight.events, hanswers, Option.elim_some]
    exact Index.apply_blocked _ _ _ _
  | saleCleared hanswers =>
    simp only [Flight.events, hanswers, Option.elim_some]
    exact Index.apply_blocked _ _ _ _
  | sold hsub =>
    simp only [Flight.events, TlaRegistry.soldEvents, if_true, hsub, Option.elim_some,
      Index.applyAll, List.foldl_cons, List.foldl_nil, Index.apply, Index.unlist, Index.earn,
      TlaRegistry.index, LookupMap.mapValues_remove]
  | saleVoid hsub =>
    rw [TlaRegistry.index_aborted]
    simp only [Flight.events, TlaRegistry.soldEvents, if_true, hsub, Option.elim_none]
    rfl
  | saleFailed =>
    rw [TlaRegistry.index_aborted]
    rfl
  | _ => rfl

end

/-! ## Whole runs -/

/-- The only line of a rejected call is that its caller, who had no mother, was given a default
one, by a rental. -/
theorem Op.failed_lines {env : Env} {r : TlaRegistry} {op : Op}
    (hfailed : (op.receiptLog env r).succeeded = false) :
    (op.receiptLog env r).lines = [] ∨
      (∃ tlaId name ownerKey mainWallet, op = .rentSubAccount tlaId name ownerKey mainWallet) ∧
        r.mothers.get env.predecessor = none ∧ (op.receiptLog env r).lines =
          [(Event.motherSet env.predecessor env.predecessor .default_).line] := by
  unfold Op.receiptLog at hfailed ⊢
  split at hfailed
  · cases hfailed
  · cases op with
    | rentSubAccount tlaId name ownerKey mainWallet =>
      simp only [Op.failedEvents]
      split
      · unfold TlaRegistry.motherDefaultEvents
        split
        · exact .inl rfl
        · rename_i hnew
          rw [Bool.not_eq_true, LookupMap.containsKey_eq_false] at hnew
          exact .inr ⟨⟨tlaId, name, ownerKey, mainWallet, rfl⟩, hnew, rfl⟩
      · exact .inl rfl
    | _ => exact .inl rfl

theorem Flight.failed_lines {r : TlaRegistry} {fl : Flight} {receipt : ReceiptLog}
    (h : fl.receiptLog r = some receipt) (hfailed : receipt.succeeded = false) :
    receipt.lines = [] := by
  obtain ⟨result, -, rfl⟩ := Option.map_eq_some_iff.mp h
  cases result with
  | ok o => cases hfailed
  | error e => rfl

namespace Chain

variable {c c' : Chain} {l : Label}

/-- What an accepted call has on record. -/
theorem receiptLog_of_accepted {predecessor : AccountId} {deposit reserve : ℕ} {op : Op}
    {o : Outcome} (hcall : c.callOutcome predecessor deposit reserve op = some o) :
    c.receiptLog (.call predecessor deposit reserve op) =
      some (.of true (op.events (c.callEnv predecessor deposit reserve) c.registry)) := by
  unfold callOutcome at hcall
  split at hcall
  · cases hcall
  · rename_i hpayable
    rw [receiptLog, if_neg hpayable, Op.receiptLog]
    cases hrun : op.run (c.callEnv predecessor deposit reserve) c.registry with
    | error e => rw [hrun] at hcall; cases hcall
    | ok o' => rfl

theorem receiptLog_of_rejected {predecessor : AccountId} {deposit reserve : ℕ} {op : Op}
    (hcall : c.callOutcome predecessor deposit reserve op = none) :
    ∃ events, c.receiptLog (.call predecessor deposit reserve op) = some (.of false events) := by
  unfold callOutcome at hcall
  split at hcall
  · rename_i hpayable
    exact ⟨[], if_pos hpayable⟩
  · rename_i hpayable
    rw [receiptLog, if_neg hpayable, Op.receiptLog]
    cases hrun : op.run (c.callEnv predecessor deposit reserve) c.registry with
    | error e => exact ⟨_, rfl⟩
    | ok o' => rw [hrun] at hcall; cases hcall

/-- A step moves the index as the lines of its receipt say, if the receipt succeeds. -/
theorem Reached.index_step {g : Genesis} (h : c.Reached g) (hstep : c.step l = some c') :
    c.registry.index.replay (c.receiptLog l).toList = c'.registry.index := by
  have hread (events : List Event) :
      c.registry.index.replay [.of true events] = c.registry.index.applyAll events :=
    Index.readLines_map _ _
  cases move_of_step hstep with
  | rejected hcall =>
    obtain ⟨events, hlog⟩ := receiptLog_of_rejected hcall
    rw [hlog]
    rfl
  | @accepted predecessor deposit reserve op o hcall _ _ ho =>
    rw [receiptLog_of_accepted hcall, Option.toList_some, hread]
    cases hop : op.configures with
    | true =>
      obtain ⟨-, r', rfl, hr'⟩ := configured_of_run hop (run_of_callOutcome hcall)
      exact hr'.index
    | false => exact ho.index hop h.totalRevenue_le
  | @settled id ok fl o hfl hcallback ho =>
    obtain ⟨fl', hfl', hcallback⟩ := Option.bind_eq_some_iff.mp hcallback
    cases hfl.symm.trans hfl'
    obtain ⟨result, hresult, hok⟩ := Option.bind_eq_some_iff.mp hcallback
    cases result with
    | error e => cases hok
    | ok o' =>
      have hlog : c.receiptLog (.deliver id ok) = some (.of true (fl.events c.registry)) := by
        simp only [receiptLog, hfl, Option.bind_some, Flight.receiptLog, hresult, Option.map_some]
      rw [hlog, Option.toList_some, hread]
      exact ho.index
  | @panicked id ok fl e hfl _ he =>
    have hlog : c.receiptLog (.deliver id ok) = some (.of false []) := by
      simp only [receiptLog, hfl, Option.bind_some, Flight.receiptLog, he, Option.map_some]
    rw [hlog]
    rfl
  | @advanced id ok fl _ hfl _ hnone hadvance =>
    have hlog : c.receiptLog (.deliver id ok) = none := by
      simp only [receiptLog, hfl, Option.bind_some, Flight.receiptLog, hnone, Option.map_none]
    rw [hlog, (advanced_of_advance hadvance).registry]
    rfl
  | answered _ hanswer => rw [hanswer.registry]; rfl
  | _ => rfl

/-- A receipt that fails has no line, or it is a rental that gave its caller a default mother. -/
theorem failed_lines {receipt : ReceiptLog} (h : c.receiptLog l = some receipt)
    (hfailed : receipt.succeeded = false) :
    receipt.lines = [] ∨ ∃ predecessor deposit reserve tlaId name ownerKey mainWallet,
      l = .call predecessor deposit reserve (.rentSubAccount tlaId name ownerKey mainWallet) ∧
        c.registry.mothers.get predecessor = none ∧
        receipt.lines = [(Event.motherSet predecessor predecessor .default_).line] := by
  cases l with
  | call predecessor deposit reserve op =>
    rw [receiptLog] at h
    split at h
    · cases h
      exact .inl rfl
    · cases h
      rcases Op.failed_lines hfailed with
        hnone | ⟨⟨tlaId, name, ownerKey, mainWallet, rfl⟩, hnew, hlines⟩
      · exact .inl hnone
      · exact .inr
          ⟨predecessor, deposit, reserve, tlaId, name, ownerKey, mainWallet, rfl, hnew, hlines⟩
  | deliver id ok =>
    obtain ⟨fl, -, hlog⟩ := Option.bind_eq_some_iff.mp h
    exact .inl (Flight.failed_lines hlog hfailed)
  | _ => cases h

end Chain

theorem log_append (tr tr' : List (Transition Chain Label)) :
    log (tr ++ tr') = log tr ++ log tr' := List.filterMap_append

/-- Whoever replays the successful receipts of a run, from the index of a registry just
deployed, ends with the index of the registry. A receipt that failed has no line, or the one
that says that the caller of a rental, who had no mother, was given a default one. -/
theorem replay_log {g : Genesis} {tr : List (Transition Chain Label)} {c : Chain}
    (hrun : Run Chain.step (Chain.init g) tr c) :
    (Chain.init g).registry.index.replay (log tr) = c.registry.index ∧
      ∀ t ∈ tr, ∀ receipt, t.before.receiptLog t.label = some receipt →
        receipt.succeeded = false → receipt.lines = [] ∨
          ∃ predecessor deposit reserve tlaId name ownerKey mainWallet,
            t.label =
              .call predecessor deposit reserve (.rentSubAccount tlaId name ownerKey mainWallet) ∧
            t.before.registry.mothers.get predecessor = none ∧
            receipt.lines = [(Event.motherSet predecessor predecessor .default_).line] := by
  constructor
  · induction hrun with
    | nil => rfl
    | @snoc tr c c' l hrun hstep ih =>
      have hlast : log [⟨c, l, c'⟩] = (c.receiptLog l).toList := by
        cases hlog : c.receiptLog l <;> simp [log, hlog]
      have hreached : c.Reached g := ⟨tr, hrun⟩
      rw [log_append, Index.replay_append, ih, hlast, hreached.index_step hstep]
  · intro t _ receipt hlog hfailed
    exact Chain.failed_lines hlog hfailed

/-- Alice is the licensee of a TLA that takes no sub-account. -/
def Sample.fullTla : List Label :=
  [call admin 0 (.registerTla tla .business .standard (some alice)),
    call alice (1100 * oneNear) (.activateTla tla), call admin 0 (.setBusinessSubCap tla (some 0))]

/-- The receipt of her rental fails, with a line that the registry knows nothing of. -/
theorem replay_log_full :
    ∃ (tr : List (Transition Chain Label)) (c : Chain),
      tr.map Transition.label = Sample.fullTla ++ [Sample.rent Sample.alice] ∧
      (∃ receipt ∈ log tr, receipt.succeeded = false ∧ receipt.lines ≠ []) ∧
      c.registry.mothers.get Sample.alice = none ∧
      (Chain.init Sample.genesis).registry.index.replay (log tr) = c.registry.index := by
  obtain ⟨tr, hrun, hlabels⟩ := Sample.exists_run Sample.fullTla (by decide +kernel)
  have hcall : (Sample.after Sample.fullTla (by decide +kernel)).callOutcome Sample.alice
      (100 * oneNear) 0
      (.rentSubAccount Sample.tla Sample.name Sample.ownerKey Sample.alice) = none := by
    decide +kernel
  have hbound : (Sample.after Sample.fullTla (by decide +kernel)).nativeTotal + 100 * oneNear
      < u128Max := by decide +kernel
  have hlog : ((Sample.after Sample.fullTla (by decide +kernel)).receiptLog
      (Sample.rent Sample.alice)).map
        (fun receipt => (receipt.succeeded, receipt.lines.isEmpty)) = some (false, false) := by
    decide +kernel
  have hmother : (Sample.after Sample.fullTla (by decide +kernel)).registry.mothers.get
      Sample.alice = none := by decide +kernel
  generalize Sample.after Sample.fullTla (by decide +kernel) = full
    at hrun hcall hbound hlog hmother
  have hstep : full.step (Sample.rent Sample.alice) = some full := by
    simp only [Sample.rent, Sample.call, Chain.step, hbound, if_true, hcall, Option.elim_none]
  obtain ⟨receipt, hreceipt, hfailed⟩ := Option.map_eq_some_iff.mp hlog
  rw [Prod.mk.injEq] at hfailed
  refine ⟨_, full, ?_, ⟨receipt, ?_, hfailed.1, ?_⟩, hmother, (replay_log (hrun.snoc hstep)).1⟩
  · rw [List.map_append, hlabels]
    rfl
  · exact List.mem_filterMap.mpr ⟨_, List.mem_append_right _ (List.mem_singleton_self _), hreceipt⟩
  · rintro hnil
    rw [hnil] at hfailed
    cases hfailed.2

end HosTla
