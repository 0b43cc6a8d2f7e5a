-- SUMMARY: The sub-account locker and the TLA manager that deploys it.
import HosTla.Registry.Promise

/-!
# Locker and manager

The methods of `sub-account-locker` and `tla-manager`. A locker method is
rejected with a `LockerError`, or it returns the new locker state and the
receipt the locker sends next.
-/

namespace HosTla

open Foundation

inductive SubState
  | held
  | exporting
  | exported
deriving DecidableEq

inductive LockerError
  | unauthorized
  | exportInProgress
  | alreadyExported
deriving DecidableEq

structure SubAccountLocker where
  registry : AccountId
  ownerKey : PublicKey
  state : SubState
deriving DecidableEq

namespace SubAccountLocker

def new (registry : AccountId) (ownerKey : PublicKey) : SubAccountLocker where
  registry := registry
  ownerKey := ownerKey
  state := .held

def assertRegistry (l : SubAccountLocker) (predecessor : AccountId) : Except LockerError Unit :=
  rejectIf (predecessor ≠ l.registry) .unauthorized

def assertHeld (l : SubAccountLocker) : Except LockerError Unit :=
  match l.state with
  | .held => return ()
  | .exporting => .error .exportInProgress
  | .exported => .error .alreadyExported

/-- The result is the key of the `AddKey` action the locker sends to itself. -/
def export_ (l : SubAccountLocker) (predecessor : AccountId) :
    Except LockerError (SubAccountLocker × PublicKey) := do
  l.assertRegistry predecessor
  l.assertHeld
  return ({ l with state := .exporting }, l.ownerKey)

def onExportResolved (l : SubAccountLocker) (promiseOk : Bool) : SubAccountLocker :=
  { l with state := if promiseOk then .exported else .held }

def transfer (l : SubAccountLocker) (predecessor : AccountId) (newOwnerKey : PublicKey) :
    Except LockerError SubAccountLocker := do
  l.assertRegistry predecessor
  l.assertHeld
  return { l with ownerKey := newOwnerKey }

/-- An accepted sweep asks the token for the balance of the account. -/
def sweepFt (l : SubAccountLocker) (predecessor : AccountId) : Except LockerError Unit := do
  l.assertRegistry predecessor
  l.assertHeld

/-- The balance the sweep goes on to transfer, if any. -/
def afterBalanceQuery (balance : PromiseResult) : Option ℕ :=
  match balance with
  | .failed => none
  | .successful bytes =>
    match decodeU128 bytes with
    | none => none
    | some amount => if amount = 0 then none else some amount

/-- An accepted finalize sends `delete_account` to the locker's own account. -/
def finalizeDelete (l : SubAccountLocker) (predecessor : AccountId) :
    Except LockerError Unit := do
  l.assertRegistry predecessor
  l.assertHeld

@[simp] theorem assertRegistry_eq_ok {l : SubAccountLocker} {p : AccountId} {u : Unit} :
    l.assertRegistry p = .ok u ↔ p = l.registry := by
  simp [assertRegistry]

@[simp] theorem assertHeld_eq_ok {l : SubAccountLocker} {u : Unit} :
    l.assertHeld = .ok u ↔ l.state = .held := by
  unfold assertHeld; cases l.state <;> simp

theorem export_eq_ok {l l' : SubAccountLocker} {p : AccountId} {k : PublicKey} :
    l.export_ p = .ok (l', k) ↔
      p = l.registry ∧ l.state = .held ∧ l' = { l with state := .exporting } ∧ k = l.ownerKey := by
  simp [export_]

theorem transfer_eq_ok {l l' : SubAccountLocker} {p : AccountId} {k : PublicKey} :
    l.transfer p k = .ok l' ↔
      p = l.registry ∧ l.state = .held ∧ l' = { l with ownerKey := k } := by
  simp [transfer]

theorem finalizeDelete_eq_ok {l : SubAccountLocker} {p : AccountId} {u : Unit} :
    l.finalizeDelete p = .ok u ↔ p = l.registry ∧ l.state = .held := by
  simp [finalizeDelete]

end SubAccountLocker

/-! ## The manager -/

inductive ManagerError
  | unauthorized
  | invalidSubAccountName
deriving DecidableEq

structure TlaManager where
  registry : AccountId
deriving DecidableEq

/-- The batch `create_account`, `transfer`, `deploy_contract`, `new` the manager
sends: the account to create and the locker that runs on it. -/
def TlaManager.createSubAccount (m : TlaManager) (predecessor currentAccountId : AccountId)
    (name : Str) (ownerKey : PublicKey) :
    Except ManagerError (AccountId × SubAccountLocker) := do
  rejectIf (predecessor ≠ m.registry) .unauthorized
  let subAccount ← okOr (AccountId.parse (subAccountKey currentAccountId name))
    .invalidSubAccountName
  return (subAccount, SubAccountLocker.new m.registry ownerKey)

theorem TlaManager.createSubAccount_eq_ok {m : TlaManager} {predecessor tla a : AccountId}
    {name : Str} {k : PublicKey} {l : SubAccountLocker} :
    m.createSubAccount predecessor tla name k = .ok (a, l) ↔
      predecessor = m.registry ∧ a.chars = subAccountKey tla name ∧ l = .new predecessor k := by
  simp only [createSubAccount, bind_eq_ok, rejectIf_eq_ok, okOr_eq_ok, pure_eq_ok,
    AccountId.parse_eq_some, Prod.mk.injEq, not_not]
  constructor
  · rintro ⟨-, rfl, a', ha', rfl, rfl⟩
    exact ⟨rfl, ha', rfl⟩
  · rintro ⟨rfl, ha, rfl⟩
    exact ⟨(), rfl, a, ha, rfl, rfl⟩

end HosTla
