-- SUMMARY: What has happened so far on a chain, recorded beside it for statements about whole runs.
import HosTla.Foundation.Transition
import HosTla.Chain.System

/-!
# History

A history records the past of a chain: the calls that opened the promise chains,
the rental each entry comes from, who listed and who accepted, what was credited
and paid, and the key swaps that lockers made. It is written beside the chain and
no step reads it.
-/

namespace HosTla

open Foundation

/-- An accepted call, with the chain it was made on and the rentals of that moment. -/
structure CallRecord where
  before : Chain
  rentals : Str → Option ℕ
  predecessor : AccountId
  deposit : ℕ
  reserve : ℕ
  op : Op

/-- The owner of an entry, and the rental it owns the entry by. -/
structure Tenancy where
  owner : AccountId
  rental : Option ℕ
deriving DecidableEq

structure History where
  /-- The call that opened the promise chain with this id. -/
  opened : ℕ → Option CallRecord
  /-- The id of the call that last rented the key. -/
  rentals : Str → Option ℕ
  /-- Who placed the listing of the key, and in which rental. -/
  listed : Str → Option Tenancy
  /-- Who accepted the offer on the key, and in which rental. -/
  offered : Str → Option Tenancy
  credits : List (AccountId × ℕ)
  /-- Claims whose transfer arrived. -/
  paid : List (AccountId × ℕ)
  /-- The account whose locker took a new owner key for this sale, and the key. -/
  swapped : ℕ → Option (AccountId × PublicKey)

namespace History

def empty : History where
  opened _ := none
  rentals _ := none
  listed _ := none
  offered _ := none
  credits := []
  paid := []
  swapped _ := none

/-- The record of an accepted call. -/
def recordCall (h : History) (c : Chain) (predecessor : AccountId) (deposit reserve : ℕ)
    (op : Op) (o : Outcome) : History where
  opened := Function.update h.opened c.nextId
    (some ⟨c, h.rentals, predecessor, deposit, reserve, op⟩)
  rentals :=
    match op with
    | .rentSubAccount tlaId name _ _ =>
      Function.update h.rentals (subAccountKey tlaId name) (some c.nextId)
    | _ => h.rentals
  listed :=
    match op with
    | .listSubAccount tlaId name _ =>
      Function.update h.listed (subAccountKey tlaId name)
        (some ⟨predecessor, h.rentals (subAccountKey tlaId name)⟩)
    | _ => h.listed
  offered :=
    match op with
    | .acceptOffer tlaId name _ _ =>
      Function.update h.offered (subAccountKey tlaId name)
        (some ⟨predecessor, h.rentals (subAccountKey tlaId name)⟩)
    | _ => h.offered
  credits := h.credits ++ o.credits
  paid := h.paid
  swapped := h.swapped

/-- The record of a receipt outside the registry. -/
def recordReceipt (h : History) (c : Chain) (id : ℕ) (ok : Bool) : Flight → History
  | .refundTransfer caller amount =>
    if ok then { h with paid := h.paid ++ [(caller, amount)] } else h
  | .transferCall subAccount settlement =>
    if ok ∧ (c.transferredLocker subAccount settlement.newOwnerKey).isSome then
      { h with
        swapped := Function.update h.swapped id (some (subAccount, settlement.newOwnerKey)) }
    else h
  | _ => h

/-- A receipt outside the registry records payments and key swaps only. -/
theorem recordReceipt_eq (h : History) (c : Chain) (id : ℕ) (ok : Bool) (fl : Flight) :
    h.recordReceipt c id ok fl = { h with
      paid := (h.recordReceipt c id ok fl).paid
      swapped := (h.recordReceipt c id ok fl).swapped } := by
  cases fl with
  | refundTransfer => simp only [recordReceipt]; split <;> rfl
  | transferCall => simp only [recordReceipt]; split <;> rfl
  | _ => rfl

def record (h : History) (c : Chain) : Label → History
  | .call predecessor deposit reserve op =>
    (c.callOutcome predecessor deposit reserve op).elim h
      (h.recordCall c predecessor deposit reserve op)
  | .deliver id ok =>
    match c.callbackOutcome id with
    | some o => { h with credits := h.credits ++ o.credits }
    | none => (c.flights.get id).elim h (h.recordReceipt c id ok)
  | _ => h

end History

structure System where
  chain : Chain
  history : History

namespace System

def init (g : Genesis) : System := ⟨.init g, .empty⟩

def step (s : System) (l : Label) : Option System :=
  (s.chain.step l).map fun c => ⟨c, s.history.record s.chain l⟩

theorem step_eq_some {s s' : System} {l : Label} :
    s.step l = some s' ↔
      s.chain.step l = some s'.chain ∧ s'.history = s.history.record s.chain l := by
  unfold step
  rw [Option.map_eq_some_iff]
  constructor
  · rintro ⟨c, hc, rfl⟩
    exact ⟨hc, rfl⟩
  · rintro ⟨hc, hh⟩
    exact ⟨_, hc, by cases s'; cases hh; rfl⟩

/-- The history does not touch the chain. -/
theorem step_chain {s s' : System} {l : Label} (h : s.step l = some s') :
    s.chain.step l = some s'.chain := (step_eq_some.mp h).1

end System

/-- The states of the chain alone, and of the chain with its history. -/
abbrev Chain.Reached (g : Genesis) (c : Chain) : Prop := Reachable Chain.step (Chain.init g) c
abbrev System.Reached (g : Genesis) (s : System) : Prop := Reachable System.step (System.init g) s

theorem System.Reached.chain {g : Genesis} {s : System} (h : s.Reached g) : s.chain.Reached g :=
  Reachable.map (f := System.chain) (fun _ _ _ => System.step_chain) h

/-! ## A deployment

Accounts and first calls for the runs that show a behaviour on fixed inputs. -/

namespace Sample

def registry : AccountId := ⟨['r', 'g'], by decide⟩
def admin : AccountId := ⟨['a', 'd'], by decide⟩
def alice : AccountId := ⟨['a', 'l'], by decide⟩
def bob : AccountId := ⟨['b', 'o'], by decide⟩
def tla : AccountId := ⟨['h', 'o', 's'], by decide⟩
def ft : AccountId := ⟨['f', 't'], by decide⟩

def name : Str := ['n']

/-- The account `n.hos`. -/
def sub : AccountId := ⟨['n', '.', 'h', 'o', 's'], by decide⟩

def ownerKey : PublicKey := ⟨[1]⟩
def otherKey : PublicKey := ⟨[2]⟩

def genesis : Genesis where
  self := registry
  admin := admin
  balance := 0
  now := 0
  occupied _ := false
  balance_lt := by decide
  now_le := by decide

/-- The chain after a run that goes through. -/
def after (ls : List Label) (h : (exec Chain.step (Chain.init genesis) ls).isSome = true) :
    Chain :=
  (exec Chain.step (Chain.init genesis) ls).get h

theorem reached (ls : List Label) (h : (exec Chain.step (Chain.init genesis) ls).isSome = true) :
    (after ls h).Reached genesis :=
  reachable_of_exec (Option.some_get h).symm

theorem exists_run (ls : List Label)
    (h : (exec Chain.step (Chain.init genesis) ls).isSome = true) :
    ∃ tr, Run Chain.step (Chain.init genesis) tr (after ls h) ∧ tr.map Transition.label = ls :=
  Run.of_exec (Option.some_get h).symm

/-- A run whose steps all meet a guard. -/
theorem exists_run_meets (G : Chain → Label → Prop) [∀ c l, Decidable (G c l)] (ls : List Label)
    (h : (exec Chain.step (Chain.init genesis) ls).isSome = true)
    (hchecks : checks Chain.step G (Chain.init genesis) ls = true) :
    ∃ tr, Run Chain.step (Chain.init genesis) tr (after ls h) ∧ Meets G tr := by
  obtain ⟨tr, hrun, hlabels⟩ := exists_run ls h
  exact ⟨tr, hrun, hrun.meets_of_checks (hlabels.symm ▸ hchecks)⟩

/-- The same for the chain with its history. -/
def historyAfter (ls : List Label)
    (h : (exec System.step (System.init genesis) ls).isSome = true) : System :=
  (exec System.step (System.init genesis) ls).get h

theorem history_reached (ls : List Label)
    (h : (exec System.step (System.init genesis) ls).isSome = true) :
    (historyAfter ls h).Reached genesis :=
  reachable_of_exec (Option.some_get h).symm

theorem exists_history_run (ls : List Label)
    (h : (exec System.step (System.init genesis) ls).isSome = true) :
    ∃ tr, Run System.step (System.init genesis) tr (historyAfter ls h) ∧
      tr.map Transition.label = ls :=
  Run.of_exec (Option.some_get h).symm

theorem exists_history_run_meets (G : System → Label → Prop) [∀ s l, Decidable (G s l)]
    (ls : List Label) (h : (exec System.step (System.init genesis) ls).isSome = true)
    (hchecks : checks System.step G (System.init genesis) ls = true) :
    ∃ tr, Run System.step (System.init genesis) tr (historyAfter ls h) ∧
      tr.map Transition.label = ls ∧ Meets G tr := by
  obtain ⟨tr, hrun, hlabels⟩ := exists_history_run ls h
  exact ⟨tr, hrun, hlabels, hrun.meets_of_checks (hlabels.symm ▸ hchecks)⟩

def call (predecessor : AccountId) (deposit : ℕ) (op : Op) : Label :=
  .call predecessor deposit 0 op

/-- An open TLA with its manager. The two calls use up the ids 0 and 1. -/
def opening : List Label :=
  [call admin 0 (.registerTla tla .open_ .standard none), call admin 0 (.activateOpenTla tla),
    .deployManager tla (some ⟨registry⟩)]

def rent (renter : AccountId) : Label :=
  call renter (100 * oneNear) (.rentSubAccount tla name ownerKey renter)

/-- Alice rents the account `n.hos` and it is created. The id 2 is used up. -/
def rented : List Label :=
  opening ++ [rent alice, .deliver 2 true, .deliver 2 true, .deliver 2 true]

theorem opening_isSome : (exec Chain.step (Chain.init genesis) opening).isSome = true := by
  decide +kernel

theorem rented_isSome : (exec Chain.step (Chain.init genesis) rented).isSome = true := by
  decide +kernel

theorem history_rented_isSome :
    (exec System.step (System.init genesis) rented).isSome = true := by
  decide +kernel

/-- The TLA is open, and nobody rents anything. -/
def opened : Chain := after opening opening_isSome

/-- Alice has `n.hos`. -/
def owned : Chain := after rented rented_isSome

def settled : System := historyAfter rented history_rented_isSome

theorem opened_reached : opened.Reached genesis := reached opening opening_isSome

theorem owned_reached : owned.Reached genesis := reached rented rented_isSome

end Sample

end HosTla
