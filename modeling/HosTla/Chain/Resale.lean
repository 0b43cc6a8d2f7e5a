-- SUMMARY: The chain with the accounts that run the resale locker, and the calls the registry has on their way to them.
import HosTla.Chain.Moves
import HosTla.ResaleLocker

/-!
# Resale lockers on the chain

A resale locker stands on an account of its own and takes the calls of anybody. The calls
of the registry reach it when the receipt is delivered that `resale_unlock` or
`resale_abort` sent. `Chain` knows of such a receipt only where it goes, so the call it
carries is kept here.
-/

namespace HosTla

open Foundation

structure ResaleSystem where
  chain : Chain
  lockers : AccountId → Option ResaleAccount
  /-- The call of the registry that the chain in flight with this id carries. -/
  calls : ℕ → Option ResaleCall

inductive ResaleSystemLabel
  | chain (l : Label)
  /-- Somebody deploys the locker to an account and runs `new` on it. -/
  | deploy (account registry : AccountId) (recoveryKey : PublicKey) (accessKeys : List PublicKey)
  /-- A call of anybody but the registry. -/
  | call (account predecessor : AccountId) (m : ResaleCall)
  /-- The account executes the next receipt of a promise of its own. -/
  | resolve (account : AccountId) (id : ℕ) (ok : Bool)

/-- The call a method of `resale.rs` sends. -/
def Op.resaleCall : Op → Option ResaleCall
  | .resaleUnlock _ buyerKey => some (.unlock buyerKey)
  | .resaleAbort _ => some .abort
  | _ => none

/-- The method of the registry that sends the call. -/
def ResaleCall.op (m : ResaleCall) (account : AccountId) : Op :=
  match m with
  | .unlock buyerKey => .resaleUnlock account buyerKey
  | .abort => .resaleAbort account

@[simp] theorem ResaleCall.resaleCall_op (m : ResaleCall) (account : AccountId) :
    (m.op account).resaleCall = some m := by
  cases m <;> rfl

namespace ResaleSystem

def setLocker (s : ResaleSystem) (account : AccountId) (a : ResaleAccount) : ResaleSystem :=
  { s with lockers := Function.update s.lockers account (some a) }

/-- The calls on their way after a step of the chain. -/
def callsAfter (s : ResaleSystem) : Label → ℕ → Option ResaleCall
  | .call predecessor deposit reserve op =>
    if (s.chain.callOutcome predecessor deposit reserve op).isSome then
      Function.update s.calls s.chain.nextId op.resaleCall
    else s.calls
  | _ => s.calls

/-- The locker that a receipt of the registry reaches, if it runs, after its call. -/
def arrival (s : ResaleSystem) : Label → Option (AccountId × ResaleAccount)
  | .deliver id true =>
    match s.chain.flights.get id with
    | some (.resaleCall account) =>
      (s.calls id).bind fun m =>
        (s.lockers account).map fun a => (account, a.acceptCall s.chain.self m)
    | _ => none
  | _ => none

def step (s : ResaleSystem) : ResaleSystemLabel → Option ResaleSystem
  | .chain l =>
    (s.chain.step l).map fun chain =>
      let s' := { s with chain, calls := s.callsAfter l }
      (s.arrival l).elim s' fun (account, a) => s'.setLocker account a
  | .deploy account registry recoveryKey accessKeys =>
    if (s.lockers account).isSome then none
    else some (s.setLocker account (.deployed registry recoveryKey accessKeys))
  | .call account predecessor m =>
    if predecessor = s.chain.self then none
    else (s.lockers account).map fun a => s.setLocker account (a.acceptCall predecessor m)
  | .resolve account id ok =>
    (s.lockers account).bind fun a => (a.step (.resolve id ok)).map (s.setLocker account)

def init (g : Genesis) : ResaleSystem where
  chain := .init g
  lockers _ := none
  calls _ := none

end ResaleSystem

end HosTla
