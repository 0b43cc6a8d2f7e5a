-- SUMMARY: The resale locker, the account it runs on, and the key additions it has under way.
import HosTla.Foundation.LookupMap
import HosTla.Registry.Promise

/-!
# Resale locker

The methods of `resale-locker`. An accepted `unlock` or `abort` sends an `AddKey` to the
locker's own account, with `on_settle_resolved` as its callback. An account that runs the
locker takes the calls of anybody, and the receipts and callbacks of its own promises.
-/

namespace HosTla

open Foundation

inductive LockState
  | active
  | settling
  | settled
deriving DecidableEq

inductive ResaleLockerError
  | unauthorized
  | alreadySettled
  | settlementInProgress
deriving DecidableEq

structure ResaleLocker where
  registry : AccountId
  recoveryKey : PublicKey
  state : LockState
deriving DecidableEq

namespace ResaleLocker

/-- The `#[init]` method. -/
def new (registry : AccountId) (recoveryKey : PublicKey) : ResaleLocker where
  registry := registry
  recoveryKey := recoveryKey
  state := .active

def assertRegistry (l : ResaleLocker) (predecessor : AccountId) : Except ResaleLockerError Unit :=
  rejectIf (predecessor ≠ l.registry) .unauthorized

def assertActive (l : ResaleLocker) : Except ResaleLockerError Unit :=
  match l.state with
  | .active => return ()
  | .settling => .error .settlementInProgress
  | .settled => .error .alreadySettled

/-- The result is the key of the `AddKey` action the locker sends to itself. -/
def unlock (l : ResaleLocker) (predecessor : AccountId) (buyerKey : PublicKey) :
    Except ResaleLockerError (ResaleLocker × PublicKey) := do
  l.assertRegistry predecessor
  l.assertActive
  return ({ l with state := .settling }, buyerKey)

def abort (l : ResaleLocker) (predecessor : AccountId) :
    Except ResaleLockerError (ResaleLocker × PublicKey) := do
  l.assertRegistry predecessor
  l.assertActive
  return ({ l with state := .settling }, l.recoveryKey)

def onSettleResolved (l : ResaleLocker) (promiseOk : Bool) : ResaleLocker :=
  { l with state := if promiseOk then .settled else .active }

@[simp] theorem assertRegistry_eq_ok {l : ResaleLocker} {p : AccountId} {u : Unit} :
    l.assertRegistry p = .ok u ↔ p = l.registry := by
  simp [assertRegistry]

@[simp] theorem assertActive_eq_ok {l : ResaleLocker} {u : Unit} :
    l.assertActive = .ok u ↔ l.state = .active := by
  unfold assertActive; cases l.state <;> simp

theorem unlock_eq_ok {l l' : ResaleLocker} {p : AccountId} {buyerKey k : PublicKey} :
    l.unlock p buyerKey = .ok (l', k) ↔
      p = l.registry ∧ l.state = .active ∧ l' = { l with state := .settling } ∧ k = buyerKey := by
  simp [unlock]

theorem abort_eq_ok {l l' : ResaleLocker} {p : AccountId} {k : PublicKey} :
    l.abort p = .ok (l', k) ↔
      p = l.registry ∧ l.state = .active ∧ l' = { l with state := .settling } ∧
        k = l.recoveryKey := by
  simp [abort]

end ResaleLocker

/-! ## The account -/

/-- What a call asks of the locker. -/
inductive ResaleCall
  | unlock (buyerKey : PublicKey)
  | abort

def ResaleCall.run (m : ResaleCall) (l : ResaleLocker) (predecessor : AccountId) :
    Except ResaleLockerError (ResaleLocker × PublicKey) :=
  match m with
  | .unlock buyerKey => l.unlock predecessor buyerKey
  | .abort => l.abort predecessor

/-- The key the call is to add. -/
def ResaleCall.key (m : ResaleCall) (recoveryKey : PublicKey) : PublicKey :=
  match m with
  | .unlock buyerKey => buyerKey
  | .abort => recoveryKey

theorem ResaleCall.run_eq_ok {m : ResaleCall} {l l' : ResaleLocker} {p : AccountId}
    {k : PublicKey} :
    m.run l p = .ok (l', k) ↔
      p = l.registry ∧ l.state = .active ∧ l' = { l with state := .settling } ∧
        k = m.key l.recoveryKey := by
  cases m with
  | unlock buyerKey => exact ResaleLocker.unlock_eq_ok
  | abort => exact ResaleLocker.abort_eq_ok

/-- The next receipt of a promise of the locker. -/
inductive ResaleFlight
  | addKey (key : PublicKey)
  /-- The callback. The field `ok` is the result the `AddKey` had. -/
  | settleResolved (key : PublicKey) (ok : Bool)
deriving DecidableEq

structure ResaleAccount where
  locker : ResaleLocker
  /-- The full-access keys of the account. -/
  accessKeys : List PublicKey
  flights : LookupMap ℕ ResaleFlight
  nextId : ℕ

inductive ResaleLabel
  | call (predecessor : AccountId) (m : ResaleCall)
  /-- The next receipt of a promise is executed. Where `ok` is false it fails, whatever it
  finds: the key is not added, or the callback leaves the locker as it was. -/
  | resolve (id : ℕ) (ok : Bool)

namespace ResaleAccount

/-- An account on which `new` has run, with the keys it had before. -/
def deployed (registry : AccountId) (recoveryKey : PublicKey) (accessKeys : List PublicKey) :
    ResaleAccount where
  locker := .new registry recoveryKey
  accessKeys := accessKeys
  flights := .empty
  nextId := 0

def setFlight (s : ResaleAccount) (id : ℕ) (fl : ResaleFlight) : ResaleAccount :=
  { s with flights := s.flights.insert id fl }

/-- A rejected call changes nothing, and an accepted one sends its `AddKey`. -/
def acceptCall (s : ResaleAccount) (predecessor : AccountId) (m : ResaleCall) : ResaleAccount :=
  match m.run s.locker predecessor with
  | .ok (locker, key) =>
    { s with
      locker := locker
      flights := s.flights.insert s.nextId (.addKey key)
      nextId := s.nextId + 1 }
  | .error _ => s

/-- An `AddKey` fails if the account has the key already. -/
def resolve (s : ResaleAccount) (id : ℕ) (ok : Bool) : ResaleFlight → ResaleAccount
  | .addKey key =>
    if ok ∧ key ∉ s.accessKeys then
      { s.setFlight id (.settleResolved key true) with accessKeys := key :: s.accessKeys }
    else s.setFlight id (.settleResolved key false)
  | .settleResolved _ added =>
    { s with
      locker := if ok then s.locker.onSettleResolved added else s.locker
      flights := s.flights.remove id }

def step (s : ResaleAccount) : ResaleLabel → Option ResaleAccount
  | .call predecessor m => some (s.acceptCall predecessor m)
  | .resolve id ok => (s.flights.get id).map (s.resolve id ok)

end ResaleAccount

end HosTla
