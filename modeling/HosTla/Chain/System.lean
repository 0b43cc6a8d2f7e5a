-- SUMMARY: Registry, managers, lockers and the promises in flight as one executable step function.
import HosTla.Registry.Op
import HosTla.Locker

/-!
# The chain

The registry with its balance, the managers, the accounts, and the promise
chains in flight. A chain keeps its id from the call that created it until its
last callback has run. Any chain in flight may make its next move at any time,
so messages are delivered in every order. What the code does not decide is a
choice of the label: whether a receipt has gas and funds enough, what a token
contract answers, and what an account does that no longer runs the locker.
-/

namespace HosTla

open Foundation

inductive Account
  | absent
  /-- The account runs the locker. The list holds the full-access keys that the locker has
  added. Keys that an owner adds or deletes with one of these after an export are no step of
  the model. -/
  | locker (state : SubAccountLocker) (accessKeys : List PublicKey)
  /-- The account runs other code. -/
  | foreign
deriving DecidableEq

/-- The next receipt or callback of a promise chain in flight. A field `ok` on a
callback is the result its promise had. A field `sent` orders the receipts that
lockers send to themselves. -/
inductive Flight
  | createCall (rent : PendingRent)
  | createBatch (rent : PendingRent) (subAccount : AccountId) (locker : SubAccountLocker)
  | created (rent : PendingRent) (ok : Bool)
  | refundTransfer (caller : AccountId) (amount : ℕ)
  | refundSettled (caller : AccountId) (amount : ℕ) (ok : Bool)
  | sweepCall (subAccount ft destination : AccountId)
  | sweepBalance (subAccount ft destination : AccountId)
  | sweepQueried (subAccount ft destination : AccountId) (balance : PromiseResult)
  | sweepDeposit (subAccount ft destination : AccountId) (amount : ℕ)
  | sweepDeposited (subAccount ft destination : AccountId) (amount : ℕ) (ok : Bool)
  | sweepTransfer (subAccount ft destination : AccountId) (amount : ℕ)
  | reclaimQueries (subAccount : AccountId) (reclaim : PendingReclaim)
      (allowlist : List AccountId) (answers : List (Option PromiseResult))
  | finalizeCall (subAccount : AccountId) (reclaim : PendingReclaim)
  | deleteAccount (subAccount : AccountId) (reclaim : PendingReclaim) (sent : ℕ)
  | reclaimFinalized (reclaim : PendingReclaim) (ok : Bool)
  | exportCall (subAccount tlaId : AccountId) (name : Str)
  | addKey (subAccount tlaId : AccountId) (name : Str) (key : PublicKey) (sent : ℕ)
  | exportResolved (subAccount tlaId : AccountId) (name : Str) (ok : Bool)
  | exportSettled (tlaId : AccountId) (name : Str) (ok : Bool)
  | buyQueries (subAccount : AccountId) (settlement : PendingBuy)
      (allowlist : List AccountId) (answers : List (Option PromiseResult))
  | transferCall (subAccount : AccountId) (settlement : PendingBuy)
  | sold (settlement : PendingBuy) (ok : Bool)
  | resaleCall (account : AccountId)
  /-- The deposit of a failed receipt on its way back to the account that sent it. -/
  | refund (receiver : AccountId) (amount : ℕ)
  /-- A callback of the registry that panicked. It stays as a record. -/
  | panicked (flight : Flight)

def Promise.flight : Promise → Flight
  | .createSubAccount rent => .createCall rent
  | .transferRefund caller amount => .refundTransfer caller amount
  | .sweepFt subAccount ft destination => .sweepCall subAccount ft destination
  | .checkBalances subAccount reclaim allowlist =>
    .reclaimQueries subAccount reclaim allowlist (allowlist.map fun _ => none)
  | .finalizeDelete subAccount reclaim => .finalizeCall subAccount reclaim
  | .exportSubAccount subAccount tlaId name => .exportCall subAccount tlaId name
  | .checkBuyBalances subAccount settlement allowlist =>
    .buyQueries subAccount settlement allowlist (allowlist.map fun _ => none)
  | .settleTransfer subAccount settlement => .transferCall subAccount settlement
  | .resaleUnlock account _ => .resaleCall account
  | .resaleAbort account => .resaleCall account

/-- The answers of a fan-out, once all of them are in. -/
def collectAnswers : List (Option PromiseResult) → Option (List PromiseResult)
  | [] => some []
  | none :: _ => none
  | some result :: answers => (collectAnswers answers).map (result :: ·)

/-- The callback of the registry the chain waits for, run on the state. -/
def Flight.callback (r : TlaRegistry) : Flight → Option (Result Outcome)
  | .created p ok =>
    some (r.onSubAccountCreated ok p.tlaId p.name p.payer p.rent p.attached)
  | .refundSettled caller amount ok => some (r.onClaimRefundSettled ok caller amount)
  | .reclaimQueries _ p allowlist answers =>
    (collectAnswers answers).map fun results =>
      r.onBalancesChecked results p.tlaId p.name p.destination allowlist
  | .reclaimFinalized p ok => some (r.onReclaimFinalized ok p.tlaId p.name)
  | .exportSettled tlaId name ok => some (r.onExportSettled ok tlaId name)
  | .buyQueries _ settlement allowlist answers =>
    (collectAnswers answers).map fun results =>
      r.onBuyBalancesChecked results settlement allowlist
  | .sold b ok => some (r.onSubAccountSold ok b.tlaId b.name b.buyer b.price b.deposit)
  | _ => none

/-- The NEAR that travels with the chain and came from the registry. -/
def Flight.native : Flight → ℕ
  | .createCall rent => rent.creationDeposit
  | .createBatch rent _ _ => rent.creationDeposit
  | .refundTransfer _ amount => amount
  | .refund _ amount => amount
  | _ => 0

structure Chain where
  /-- The account of the registry. -/
  self : AccountId
  registry : TlaRegistry
  balance : ℕ
  now : ℕ
  managers : AccountId → Option TlaManager
  accounts : AccountId → Account
  ftBalances : AccountId → AccountId → ℕ
  flights : LookupMap ℕ Flight
  nextId : ℕ

inductive Reply
  /-- The token answers with the balance it holds. -/
  | honest
  | other (result : PromiseResult)

inductive Label
  | call (predecessor : AccountId) (deposit reserve : ℕ) (op : Op)
  | deliver (id : ℕ) (ok : Bool)
  | answer (id index : ℕ) (reply : Reply)
  | tick (now : ℕ)
  | donate (amount : ℕ)
  | deployManager (tlaId : AccountId) (manager : Option TlaManager)
  /-- An account that is not in the custody of a locker appears, changes or goes. -/
  | foreign (account : AccountId) (present : Bool)
  | setFtBalance (token account : AccountId) (amount : ℕ)

namespace Chain

def setFlight (c : Chain) (id : ℕ) (flight : Flight) : Chain :=
  { c with flights := c.flights.insert id flight }

def dropFlight (c : Chain) (id : ℕ) : Chain :=
  { c with flights := c.flights.remove id }

/-- Put a further flight on its way. -/
def send (c : Chain) (flight : Flight) : Chain :=
  { c with flights := c.flights.insert c.nextId flight, nextId := c.nextId + 1 }

def setAccount (c : Chain) (account : AccountId) (state : Account) : Chain :=
  { c with accounts := Function.update c.accounts account state }

def setFtBalance (c : Chain) (token account : AccountId) (amount : ℕ) : Chain :=
  { c with ftBalances := fun t a => if t = token ∧ a = account then amount else c.ftBalances t a }

/-- What the registry holds and what it has sent that is still under way. -/
def nativeTotal (c : Chain) : ℕ := c.balance + c.flights.sum fun _ fl => fl.native

def callEnv (c : Chain) (predecessor : AccountId) (deposit reserve : ℕ) : Env where
  predecessor := predecessor
  attachedDeposit := deposit
  accountBalance := c.balance + deposit
  storageReserve := reserve
  blockTimestamp := c.now

/-- The outcome of a call that is accepted. -/
def callOutcome (c : Chain) (predecessor : AccountId) (deposit reserve : ℕ) (op : Op) :
    Option Outcome :=
  if deposit ≠ 0 ∧ ¬ op.payable then none
  else (op.run (c.callEnv predecessor deposit reserve) c.registry).toOption

/-- The outcome of a callback that is due and does not panic. -/
def callbackOutcome (c : Chain) (id : ℕ) : Option Outcome :=
  (c.flights.get id).bind fun fl => (fl.callback c.registry).bind Except.toOption

/-- The state after an accepted call: a promise it creates gets a fresh id. -/
def accept (c : Chain) (deposit : ℕ) (o : Outcome) : Chain :=
  { c with
    registry := o.registry
    balance := c.balance + deposit - o.sent
    flights := o.promise.elim c.flights fun p => c.flights.insert c.nextId p.flight
    nextId := c.nextId + 1 }

/-- The state after a callback: a promise it creates goes on under the same id. -/
def settle (c : Chain) (id : ℕ) (o : Outcome) : Chain :=
  { c with
    registry := o.registry
    balance := c.balance - o.sent
    flights := o.promise.elim (c.flights.remove id) fun p => c.flights.insert id p.flight }

def replyResult (c : Chain) (token account : AccountId) : Reply → PromiseResult
  | .honest => .successful (encodeU128 (c.ftBalances token account))
  | .other result => result

/-- The batch the manager of the TLA sends, if there is one and it accepts. -/
def managerBatch (c : Chain) (p : PendingRent) : Option (AccountId × SubAccountLocker) :=
  (c.managers p.tlaId).bind fun m =>
    (m.createSubAccount c.self p.tlaId p.name p.ownerKey).toOption

/-- `create_sub_account` on the manager. A failed call returns its deposit to the
registry. -/
def advanceCreateCall (c : Chain) (id : ℕ) (ok : Bool) (p : PendingRent) : Chain :=
  match c.managerBatch p with
  | some (subAccount, locker) =>
    if ok then c.setFlight id (.createBatch p subAccount locker)
    else (c.setFlight id (.created p false)).send (.refund c.self p.creationDeposit)
  | none => (c.setFlight id (.created p false)).send (.refund c.self p.creationDeposit)

/-- The batch of the manager. A failed batch returns its deposit to the manager. -/
def advanceCreateBatch (c : Chain) (id : ℕ) (ok : Bool) (p : PendingRent)
    (subAccount : AccountId) (locker : SubAccountLocker) : Chain :=
  if ok ∧ c.accounts subAccount = .absent then
    (c.setFlight id (.created p true)).setAccount subAccount (.locker locker [])
  else (c.setFlight id (.created p false)).send (.refund p.tlaId p.creationDeposit)

def advanceRefundTransfer (c : Chain) (id : ℕ) (ok : Bool) (caller : AccountId) (amount : ℕ) :
    Chain :=
  if ok then c.setFlight id (.refundSettled caller amount true)
  else (c.setFlight id (.refundSettled caller amount false)).send (.refund c.self amount)

/-- The moves of a sweep on the locker and on the token. -/
def advanceSweep (c : Chain) (id : ℕ) (ok : Bool) : Flight → Option Chain
  | .sweepCall subAccount ft destination =>
    match c.accounts subAccount with
    | .locker l _ =>
      if ok ∧ (l.sweepFt c.self).toBool then
        some (c.setFlight id (.sweepBalance subAccount ft destination))
      else some (c.dropFlight id)
    | _ => some (c.dropFlight id)
  | .sweepQueried subAccount ft destination balance =>
    match c.accounts subAccount, SubAccountLocker.afterBalanceQuery balance with
    | .locker _ _, some amount =>
      some (c.setFlight id (.sweepDeposit subAccount ft destination amount))
    | _, _ => some (c.dropFlight id)
  | .sweepDeposit subAccount ft destination amount =>
    some (c.setFlight id (.sweepDeposited subAccount ft destination amount ok))
  | .sweepDeposited subAccount ft destination amount deposited =>
    match c.accounts subAccount with
    | .locker _ _ =>
      if deposited then some (c.setFlight id (.sweepTransfer subAccount ft destination amount))
      else some (c.dropFlight id)
    | _ => some (c.dropFlight id)
  | .sweepTransfer subAccount ft destination amount =>
    if ok ∧ amount ≤ c.ftBalances ft subAccount then
      let c' := c.setFtBalance ft subAccount (c.ftBalances ft subAccount - amount)
      some ((c'.setFtBalance ft destination (c'.ftBalances ft destination + amount)).dropFlight id)
    else some (c.dropFlight id)
  | _ => none

def advanceFinalizeCall (c : Chain) (id : ℕ) (ok : Bool) (subAccount : AccountId)
    (reclaim : PendingReclaim) : Chain :=
  match c.accounts subAccount with
  | .locker l _ =>
    if ok ∧ (l.finalizeDelete c.self).toBool then
      { c.setFlight id (.deleteAccount subAccount reclaim c.nextId) with nextId := c.nextId + 1 }
    else c.setFlight id (.reclaimFinalized reclaim false)
  | .absent => c.setFlight id (.reclaimFinalized reclaim false)
  | .foreign => c.setFlight id (.reclaimFinalized reclaim ok)

def advanceDeleteAccount (c : Chain) (id : ℕ) (ok : Bool) (subAccount : AccountId)
    (reclaim : PendingReclaim) : Chain :=
  if ok ∧ c.accounts subAccount ≠ .absent then
    (c.setFlight id (.reclaimFinalized reclaim true)).setAccount subAccount .absent
  else c.setFlight id (.reclaimFinalized reclaim false)

def advanceExportCall (c : Chain) (id : ℕ) (ok : Bool) (subAccount tlaId : AccountId)
    (name : Str) : Chain :=
  match c.accounts subAccount with
  | .locker l accessKeys =>
    match l.export_ c.self with
    | .ok (l', key) =>
      if ok then
        { (c.setFlight id (.addKey subAccount tlaId name key c.nextId)).setAccount subAccount
            (.locker l' accessKeys) with nextId := c.nextId + 1 }
      else c.setFlight id (.exportSettled tlaId name false)
    | .error _ => c.setFlight id (.exportSettled tlaId name false)
  | .absent => c.setFlight id (.exportSettled tlaId name false)
  | .foreign => c.setFlight id (.exportSettled tlaId name ok)

def advanceAddKey (c : Chain) (id : ℕ) (ok : Bool) (subAccount tlaId : AccountId) (name : Str)
    (key : PublicKey) : Chain :=
  match c.accounts subAccount with
  | .locker l accessKeys =>
    if ok ∧ key ∉ accessKeys then
      (c.setFlight id (.exportResolved subAccount tlaId name true)).setAccount subAccount
        (.locker l (key :: accessKeys))
    else c.setFlight id (.exportResolved subAccount tlaId name false)
  | .absent => c.setFlight id (.exportResolved subAccount tlaId name false)
  | .foreign => c.setFlight id (.exportResolved subAccount tlaId name ok)

/-- `on_export_resolved` on the locker. It returns without a panic, so the
registry sees a success whatever became of the key. -/
def advanceExportResolved (c : Chain) (id : ℕ) (ok : Bool) (subAccount tlaId : AccountId)
    (name : Str) (added : Bool) : Chain :=
  match c.accounts subAccount with
  | .locker l accessKeys =>
    (c.setFlight id (.exportSettled tlaId name true)).setAccount subAccount
      (.locker (l.onExportResolved added) accessKeys)
  | .absent => c.setFlight id (.exportSettled tlaId name false)
  | .foreign => c.setFlight id (.exportSettled tlaId name ok)

/-- The locker after `transfer` of a settlement, where a locker runs and accepts it. -/
def transferredLocker (c : Chain) (subAccount : AccountId) (newOwnerKey : PublicKey) :
    Option Account :=
  match c.accounts subAccount with
  | .locker l accessKeys =>
    match l.transfer c.self newOwnerKey with
    | .ok l' => some (.locker l' accessKeys)
    | .error _ => none
  | _ => none

def advanceTransferCall (c : Chain) (id : ℕ) (ok : Bool) (subAccount : AccountId)
    (settlement : PendingBuy) : Chain :=
  match c.transferredLocker subAccount settlement.newOwnerKey with
  | some account =>
    if ok then (c.setFlight id (.sold settlement true)).setAccount subAccount account
    else c.setFlight id (.sold settlement false)
  | none => c.setFlight id (.sold settlement (ok && c.accounts subAccount = .foreign))

/-- One move of a chain that waits for a receipt outside the registry. -/
def advance (c : Chain) (id : ℕ) (ok : Bool) : Flight → Option Chain
  | .createCall p => some (c.advanceCreateCall id ok p)
  | .createBatch p subAccount locker => some (c.advanceCreateBatch id ok p subAccount locker)
  | .refundTransfer caller amount => some (c.advanceRefundTransfer id ok caller amount)
  | .finalizeCall subAccount reclaim => some (c.advanceFinalizeCall id ok subAccount reclaim)
  | .deleteAccount subAccount reclaim _ => some (c.advanceDeleteAccount id ok subAccount reclaim)
  | .exportCall subAccount tlaId name => some (c.advanceExportCall id ok subAccount tlaId name)
  | .addKey subAccount tlaId name key _ => some (c.advanceAddKey id ok subAccount tlaId name key)
  | .exportResolved subAccount tlaId name added =>
    some (c.advanceExportResolved id ok subAccount tlaId name added)
  | .transferCall subAccount settlement =>
    some (c.advanceTransferCall id ok subAccount settlement)
  | .resaleCall _ => some (c.dropFlight id)
  | .refund receiver amount =>
    some { c.dropFlight id with
      balance := c.balance + if receiver = c.self then amount else 0 }
  | fl => c.advanceSweep id ok fl

/-- A token answers a balance query. -/
def advanceAnswer (c : Chain) (id index : ℕ) (reply : Reply) : Flight → Option Chain
  | .reclaimQueries subAccount reclaim allowlist answers =>
    match allowlist[index]?, answers[index]? with
    | some token, some none =>
      some (c.setFlight id (.reclaimQueries subAccount reclaim allowlist
        (answers.set index (some (c.replyResult token subAccount reply)))))
    | _, _ => none
  | .buyQueries subAccount settlement allowlist answers =>
    match allowlist[index]?, answers[index]? with
    | some token, some none =>
      some (c.setFlight id (.buyQueries subAccount settlement allowlist
        (answers.set index (some (c.replyResult token subAccount reply)))))
    | _, _ => none
  | .sweepBalance subAccount ft destination =>
    some (c.setFlight id (.sweepQueried subAccount ft destination
      (c.replyResult ft subAccount reply)))
  | _ => none

/-- A rejected call changes nothing: its deposit returns to the caller. The bound
on deposits says that all NEAR there is fits the width of a balance. -/
def step (c : Chain) : Label → Option Chain
  | .call predecessor deposit reserve op =>
    if c.nativeTotal + deposit < u128Max then
      some ((c.callOutcome predecessor deposit reserve op).elim c (c.accept deposit))
    else none
  | .deliver id ok =>
    (c.flights.get id).bind fun fl =>
      match fl.callback c.registry with
      | some (.ok o) => some (c.settle id o)
      | some (.error _) => some (c.setFlight id (.panicked fl))
      | none => c.advance id ok fl
  | .answer id index reply => (c.flights.get id).bind (c.advanceAnswer id index reply)
  | .tick now => if c.now ≤ now ∧ now ≤ u64Max then some { c with now } else none
  | .donate amount =>
    if c.nativeTotal + amount < u128Max then some { c with balance := c.balance + amount }
    else none
  | .deployManager tlaId manager =>
    if tlaId = c.self then none
    else some { c with managers := Function.update c.managers tlaId manager }
  | .foreign account present =>
    match c.accounts account with
    | .locker _ [] => none
    | _ => some (c.setAccount account (if present then .foreign else .absent))
  | .setFtBalance token account amount => some (c.setFtBalance token account amount)

end Chain

/-- The choices at deployment. -/
structure Genesis where
  self : AccountId
  admin : AccountId
  balance : ℕ
  now : ℕ
  /-- The accounts that exist already. They run other code than the locker. -/
  occupied : AccountId → Bool
  balance_lt : balance < u128Max
  now_le : now ≤ u64Max

/-- The registry as deployed, before any call. -/
def Chain.init (g : Genesis) : Chain where
  self := g.self
  registry := .new g.admin
  balance := g.balance
  now := g.now
  managers := fun _ => none
  accounts := fun a => if g.occupied a then .foreign else .absent
  ftBalances := fun _ _ => 0
  flights := .empty
  nextId := 0

end HosTla
