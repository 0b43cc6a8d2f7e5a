-- SUMMARY: The moves a step can make, and what a receipt outside the registry does to the chains in flight.
import HosTla.Chain.History
import HosTla.Chain.Settled

/-!
# Moves

`Move c l c'` lists what `Chain.step` does, with the accepted call or the
callback in the form of `Accepted` and `Settled`. The invariants of the claims
go through the cases of `Move`.
-/

namespace HosTla

open Foundation

/-! ## Receipts outside the registry -/

def Flight.isSweep : Flight → Bool
  | .sweepCall .. | .sweepBalance .. | .sweepQueried .. => true
  | .sweepDeposit .. | .sweepDeposited .. | .sweepTransfer .. => true
  | _ => false

/-- The deposit of a failed receipt that reaches `account`. -/
def Flight.backTo (account : AccountId) : Flight → ℕ
  | .refund receiver amount => if receiver = account then amount else 0
  | _ => 0

/-- What a chain waits for after a receipt outside the registry, if it goes on, and the
deposit that goes back to the account that sent the receipt, if it failed. -/
inductive Flight.Next (self : AccountId) : Flight → Option Flight → Option (AccountId × ℕ) → Prop
  | createAccepted {p : PendingRent} {a : AccountId} {l : SubAccountLocker} :
      Next self (.createCall p) (some (.createBatch p a l)) none
  | createRefused {p : PendingRent} :
      Next self (.createCall p) (some (.created p false)) (some (self, p.creationDeposit))
  | batch {p : PendingRent} {a : AccountId} {l : SubAccountLocker} :
      Next self (.createBatch p a l) (some (.created p true)) none
  | batchFailed {p : PendingRent} {a : AccountId} {l : SubAccountLocker} :
      Next self (.createBatch p a l) (some (.created p false)) (some (p.tlaId, p.creationDeposit))
  | refundSent {caller : AccountId} {amount : ℕ} :
      Next self (.refundTransfer caller amount) (some (.refundSettled caller amount true)) none
  | refundFailed {caller : AccountId} {amount : ℕ} :
      Next self (.refundTransfer caller amount) (some (.refundSettled caller amount false))
        (some (self, amount))
  | finalizeAccepted {a : AccountId} {p : PendingReclaim} {sent : ℕ} :
      Next self (.finalizeCall a p) (some (.deleteAccount a p sent)) none
  | finalizeAnswered {a : AccountId} {p : PendingReclaim} {ok : Bool} :
      Next self (.finalizeCall a p) (some (.reclaimFinalized p ok)) none
  | deleted {a : AccountId} {p : PendingReclaim} {sent : ℕ} {ok : Bool} :
      Next self (.deleteAccount a p sent) (some (.reclaimFinalized p ok)) none
  | exportAccepted {a tlaId : AccountId} {name : Str} {key : PublicKey} {sent : ℕ} :
      Next self (.exportCall a tlaId name) (some (.addKey a tlaId name key sent)) none
  | exportAnswered {a tlaId : AccountId} {name : Str} {ok : Bool} :
      Next self (.exportCall a tlaId name) (some (.exportSettled tlaId name ok)) none
  | keyAdded {a tlaId : AccountId} {name : Str} {key : PublicKey} {sent : ℕ} {ok : Bool} :
      Next self (.addKey a tlaId name key sent) (some (.exportResolved a tlaId name ok)) none
  | exportResolved {a tlaId : AccountId} {name : Str} {added ok : Bool} :
      Next self (.exportResolved a tlaId name added) (some (.exportSettled tlaId name ok)) none
  | transferred {a : AccountId} {b : PendingBuy} {ok : Bool} :
      Next self (.transferCall a b) (some (.sold b ok)) none
  | sweep {fl fl' : Flight} (h : fl.isSweep = true) (h' : fl'.isSweep = true) :
      Next self fl (some fl') none
  | sweepEnded {fl : Flight} (h : fl.isSweep = true) : Next self fl none none
  | resaleEnded {a : AccountId} : Next self (.resaleCall a) none none
  | refundArrived {receiver : AccountId} {amount : ℕ} :
      Next self (.refund receiver amount) none none

theorem Flight.isSweep_backTo {fl : Flight} (h : fl.isSweep = true) (account : AccountId) :
    fl.backTo account = 0 := by
  cases fl <;> first | rfl | cases h

theorem Flight.Next.backTo_eq_zero {self : AccountId} {fl fl' : Flight}
    {back : Option (AccountId × ℕ)} (h : fl.Next self (some fl') back) (account : AccountId) :
    fl.backTo account = 0 := by
  cases h with
  | sweep h _ => exact isSweep_backTo h account
  | _ => rfl

/-- The flights after the chain `id` went on with `fl`, or ended. -/
def Chain.nextFlights (c : Chain) (id : ℕ) (fl : Option Flight) : LookupMap ℕ Flight :=
  fl.elim (c.flights.remove id) (c.flights.insert id)

/-- What a receipt outside the registry can do: the chain goes on or ends, a deposit
that was on its way back arrives, and a failed receipt sends its own deposit back. -/
structure Chain.Advanced (c : Chain) (id : ℕ) (fl : Flight) (c' : Chain) : Prop where
  registry : c'.registry = c.registry
  now : c'.now = c.now
  self : c'.self = c.self
  managers : c'.managers = c.managers
  balance : c'.balance = c.balance + fl.backTo c.self
  nextId : c.nextId ≤ c'.nextId
  flights : ∃ fl' back, fl.Next c.self fl' back ∧ (back.isSome → c.nextId < c'.nextId) ∧
    c'.flights = back.elim (c.nextFlights id fl') fun b =>
      (c.nextFlights id fl').insert c.nextId (.refund b.1 b.2)

namespace Chain

variable {c c' : Chain} {id : ℕ} {ok : Bool} {fl : Flight}

theorem Advanced.setFlight {fl' : Flight} (h : fl.Next c.self (some fl') none) :
    c.Advanced id fl (c.setFlight id fl') :=
  ⟨rfl, rfl, rfl, rfl, by rw [h.backTo_eq_zero]; rfl, Nat.le_refl _, _, _, h, by simp, rfl⟩

/-- The chain goes on and one more id is used up. -/
theorem Advanced.setFlight_nextId {fl' : Flight} (h : fl.Next c.self (some fl') none) :
    c.Advanced id fl { c.setFlight id fl' with nextId := c.nextId + 1 } :=
  ⟨rfl, rfl, rfl, rfl, by rw [h.backTo_eq_zero]; rfl, Nat.le_succ _, _, _, h, by simp, rfl⟩

theorem Advanced.dropFlight (h : fl.Next c.self none none) (hback : fl.backTo c.self = 0) :
    c.Advanced id fl (c.dropFlight id) :=
  ⟨rfl, rfl, rfl, rfl, by rw [hback]; rfl, Nat.le_refl _, _, _, h, by simp, rfl⟩

theorem Advanced.setFlight_send {fl' : Flight} {receiver : AccountId} {amount : ℕ}
    (h : fl.Next c.self (some fl') (some (receiver, amount))) :
    c.Advanced id fl ((c.setFlight id fl').send (.refund receiver amount)) :=
  ⟨rfl, rfl, rfl, rfl, by rw [h.backTo_eq_zero]; rfl, Nat.le_succ _, _, _, h,
    fun _ => Nat.lt_succ_self _, rfl⟩

theorem Advanced.setAccount (h : c.Advanced id fl c') (a : AccountId) (state : Account) :
    c.Advanced id fl (c'.setAccount a state) :=
  ⟨h.registry, h.now, h.self, h.managers, h.balance, h.nextId, h.flights⟩

theorem advanced_createCall {p : PendingRent} :
    c.Advanced id (.createCall p) (c.advanceCreateCall id ok p) := by
  unfold advanceCreateCall
  split
  · split
    · exact .setFlight .createAccepted
    · exact .setFlight_send .createRefused
  · exact .setFlight_send .createRefused

theorem advanced_createBatch {p : PendingRent} {a : AccountId} {l : SubAccountLocker} :
    c.Advanced id (.createBatch p a l) (c.advanceCreateBatch id ok p a l) := by
  unfold advanceCreateBatch
  split
  · exact (Advanced.setFlight .batch).setAccount _ _
  · exact .setFlight_send .batchFailed

theorem advanced_refundTransfer {caller : AccountId} {amount : ℕ} :
    c.Advanced id (.refundTransfer caller amount) (c.advanceRefundTransfer id ok caller amount) := by
  unfold advanceRefundTransfer
  split
  · exact .setFlight .refundSent
  · exact .setFlight_send .refundFailed

theorem advanced_sweep (ok : Bool) (h : c.advanceSweep id ok fl = some c') : c.Advanced id fl c' := by
  have hset {fl' : Flight} (hfl : fl.isSweep = true) (hfl' : fl'.isSweep = true) :
      c.Advanced id fl (c.setFlight id fl') := .setFlight (.sweep hfl hfl')
  have hdrop (hfl : fl.isSweep = true) : c.Advanced id fl (c.dropFlight id) :=
    .dropFlight (.sweepEnded hfl) (Flight.isSweep_backTo hfl _)
  unfold advanceSweep at h
  split at h
  · split at h
    · split at h
      · cases h; exact hset rfl rfl
      · cases h; exact hdrop rfl
    · cases h; exact hdrop rfl
  · split at h
    · cases h; exact hset rfl rfl
    · cases h; exact hdrop rfl
  · cases h; exact hset rfl rfl
  · split at h
    · split at h
      · cases h; exact hset rfl rfl
      · cases h; exact hdrop rfl
    · cases h; exact hdrop rfl
  · split at h
    · cases h
      exact ⟨rfl, rfl, rfl, rfl, rfl, Nat.le_refl _, _, _, .sweepEnded rfl, by simp, rfl⟩
    · cases h; exact hdrop rfl
  · cases h

theorem advanced_finalizeCall {a : AccountId} {p : PendingReclaim} :
    c.Advanced id (.finalizeCall a p) (c.advanceFinalizeCall id ok a p) := by
  unfold advanceFinalizeCall
  split
  · split
    · exact .setFlight_nextId .finalizeAccepted
    · exact .setFlight .finalizeAnswered
  · exact .setFlight .finalizeAnswered
  · exact .setFlight .finalizeAnswered

theorem advanced_deleteAccount {a : AccountId} {p : PendingReclaim} {sent : ℕ} :
    c.Advanced id (.deleteAccount a p sent) (c.advanceDeleteAccount id ok a p) := by
  unfold advanceDeleteAccount
  split
  · exact (Advanced.setFlight .deleted).setAccount _ _
  · exact .setFlight .deleted

theorem advanced_exportCall {a tlaId : AccountId} {name : Str} :
    c.Advanced id (.exportCall a tlaId name) (c.advanceExportCall id ok a tlaId name) := by
  unfold advanceExportCall
  split
  · split
    · split
      · exact (Advanced.setFlight_nextId .exportAccepted).setAccount _ _
      · exact .setFlight .exportAnswered
    · exact .setFlight .exportAnswered
  · exact .setFlight .exportAnswered
  · exact .setFlight .exportAnswered

theorem advanced_addKey {a tlaId : AccountId} {name : Str} {key : PublicKey} {sent : ℕ} :
    c.Advanced id (.addKey a tlaId name key sent) (c.advanceAddKey id ok a tlaId name key) := by
  unfold advanceAddKey
  split
  · split
    · exact (Advanced.setFlight .keyAdded).setAccount _ _
    · exact .setFlight .keyAdded
  · exact .setFlight .keyAdded
  · exact .setFlight .keyAdded

theorem advanced_exportResolved {a tlaId : AccountId} {name : Str} {added : Bool} :
    c.Advanced id (.exportResolved a tlaId name added)
      (c.advanceExportResolved id ok a tlaId name added) := by
  unfold advanceExportResolved
  split
  · exact (Advanced.setFlight .exportResolved).setAccount _ _
  · exact .setFlight .exportResolved
  · exact .setFlight .exportResolved

theorem advanced_transferCall {a : AccountId} {b : PendingBuy} :
    c.Advanced id (.transferCall a b) (c.advanceTransferCall id ok a b) := by
  unfold advanceTransferCall
  split
  · split
    · exact (Advanced.setFlight .transferred).setAccount _ _
    · exact .setFlight .transferred
  · exact .setFlight .transferred

theorem advanced_of_advance (h : c.advance id ok fl = some c') : c.Advanced id fl c' := by
  cases fl with
  | createCall => cases h; exact advanced_createCall
  | createBatch => cases h; exact advanced_createBatch
  | refundTransfer => cases h; exact advanced_refundTransfer
  | finalizeCall => cases h; exact advanced_finalizeCall
  | deleteAccount => cases h; exact advanced_deleteAccount
  | exportCall => cases h; exact advanced_exportCall
  | addKey => cases h; exact advanced_addKey
  | exportResolved => cases h; exact advanced_exportResolved
  | transferCall => cases h; exact advanced_transferCall
  | resaleCall => cases h; exact .dropFlight .resaleEnded rfl
  | refund =>
    cases h
    exact ⟨rfl, rfl, rfl, rfl, rfl, Nat.le_refl _, _, _, .refundArrived, by simp, rfl⟩
  | _ => exact advanced_sweep ok h

/-! ## Answers of tokens -/

/-- An answer changes the answers of one chain and nothing else. -/
inductive Answered (c : Chain) (id : ℕ) : Flight → Chain → Prop
  | reclaim {a : AccountId} {p : PendingReclaim} {allowlist : List AccountId}
      {answers answers' : List (Option PromiseResult)} :
      Answered c id (.reclaimQueries a p allowlist answers)
        (c.setFlight id (.reclaimQueries a p allowlist answers'))
  | buy {a : AccountId} {b : PendingBuy} {allowlist : List AccountId}
      {answers answers' : List (Option PromiseResult)} :
      Answered c id (.buyQueries a b allowlist answers)
        (c.setFlight id (.buyQueries a b allowlist answers'))
  | sweep {fl fl' : Flight} (h : fl.isSweep = true) (h' : fl'.isSweep = true) :
      Answered c id fl (c.setFlight id fl')

theorem answered_of_advanceAnswer {index : ℕ} {reply : Reply}
    (h : c.advanceAnswer id index reply fl = some c') : c.Answered id fl c' := by
  unfold advanceAnswer at h
  split at h
  · split at h
    · cases h; exact .reclaim
    · cases h
  · split at h
    · cases h; exact .buy
    · cases h
  · cases h; exact .sweep rfl rfl
  · cases h

end Chain

/-! ## Moves -/

inductive Chain.Move (c : Chain) : Label → Chain → Prop
  | rejected {predecessor : AccountId} {deposit reserve : ℕ} {op : Op}
      (hcall : c.callOutcome predecessor deposit reserve op = none) :
      Move c (.call predecessor deposit reserve op) c
  | accepted {predecessor : AccountId} {deposit reserve : ℕ} {op : Op} {o : Outcome}
      (hcall : c.callOutcome predecessor deposit reserve op = some o)
      (hbound : c.nativeTotal + deposit < u128Max)
      (hpayable : deposit ≠ 0 → op.payable = true)
      (ho : Accepted (c.callEnv predecessor deposit reserve) c.registry op o) :
      Move c (.call predecessor deposit reserve op) (c.accept deposit o)
  | settled {id : ℕ} {ok : Bool} {fl : Flight} {o : Outcome}
      (hfl : c.flights.get id = some fl) (hcallback : c.callbackOutcome id = some o)
      (ho : Settled c.registry fl o) :
      Move c (.deliver id ok) (c.settle id o)
  | panicked {id : ℕ} {ok : Bool} {fl : Flight} {e : ContractError}
      (hfl : c.flights.get id = some fl) (hcallback : c.callbackOutcome id = none)
      (he : fl.callback c.registry = some (.error e)) :
      Move c (.deliver id ok) (c.setFlight id (.panicked fl))
  | advanced {id : ℕ} {ok : Bool} {fl : Flight} {c' : Chain}
      (hfl : c.flights.get id = some fl) (hcallback : c.callbackOutcome id = none)
      (hnone : fl.callback c.registry = none) (hadvance : c.advance id ok fl = some c') :
      Move c (.deliver id ok) c'
  | answered {id index : ℕ} {reply : Reply} {fl : Flight} {c' : Chain}
      (hfl : c.flights.get id = some fl) (hanswer : c.Answered id fl c') :
      Move c (.answer id index reply) c'
  | tick {now : ℕ} (hnow : c.now ≤ now) (hmax : now ≤ u64Max) : Move c (.tick now) { c with now }
  | donate {amount : ℕ} (hbound : c.nativeTotal + amount < u128Max) :
      Move c (.donate amount) { c with balance := c.balance + amount }
  | deployManager {tlaId : AccountId} {manager : Option TlaManager} (hself : tlaId ≠ c.self) :
      Move c (.deployManager tlaId manager)
        { c with managers := Function.update c.managers tlaId manager }
  | foreign {account : AccountId} {present : Bool}
      (hfree : ∀ l, c.accounts account ≠ .locker l []) :
      Move c (.foreign account present)
        (c.setAccount account (if present then .foreign else .absent))
  | setFtBalance {token account : AccountId} {amount : ℕ} :
      Move c (.setFtBalance token account amount) (c.setFtBalance token account amount)

namespace Chain

variable {c c' : Chain} {l : Label}

/-- What an accepted call did, in the form of `Accepted`. -/
theorem accepted_of_callOutcome {predecessor : AccountId} {deposit reserve : ℕ} {op : Op}
    {o : Outcome} (h : c.callOutcome predecessor deposit reserve op = some o) :
    (deposit ≠ 0 → op.payable = true) ∧
      Accepted (c.callEnv predecessor deposit reserve) c.registry op o := by
  unfold callOutcome at h
  split at h
  · cases h
  · rename_i hpayable
    refine ⟨fun hdeposit => by_contra fun hop => hpayable ⟨hdeposit, hop⟩, ?_⟩
    -- A rejected call is no outcome at all.
    cases hres : op.run (c.callEnv predecessor deposit reserve) c.registry with
    | ok o' => rw [hres] at h; cases h; exact accepted_of_run hres
    | error e => rw [hres] at h; cases h

/-- What a callback did, in the form of `Settled`. -/
theorem settled_of_callbackOutcome {id : ℕ} {fl : Flight} {o : Outcome}
    (hfl : c.flights.get id = some fl) (h : c.callbackOutcome id = some o) :
    Settled c.registry fl o := by
  simp only [callbackOutcome, hfl, Option.bind_some] at h
  cases hcallback : fl.callback c.registry with
  | none => rw [hcallback] at h; cases h
  | some res =>
    rw [hcallback] at h
    cases res with
    | ok o' => cases h; exact settled_of_callback hcallback
    | error e => cases h

theorem move_of_call {predecessor : AccountId} {deposit reserve : ℕ} {op : Op}
    (h : c.step (.call predecessor deposit reserve op) = some c') :
    c.Move (.call predecessor deposit reserve op) c' := by
  simp only [step] at h
  split at h
  · rename_i hbound
    cases h
    cases hcall : c.callOutcome predecessor deposit reserve op with
    | none => exact .rejected hcall
    | some o =>
      obtain ⟨hpayable, ho⟩ := accepted_of_callOutcome hcall
      exact .accepted hcall hbound hpayable ho
  · cases h

theorem move_of_deliver {id : ℕ} {ok : Bool} (h : c.step (.deliver id ok) = some c') :
    c.Move (.deliver id ok) c' := by
  simp only [step, Option.bind_eq_some_iff] at h
  obtain ⟨fl, hfl, h⟩ := h
  have hcallback : c.callbackOutcome id = (fl.callback c.registry).bind Except.toOption := by
    simp [callbackOutcome, hfl]
  split at h
  -- A callback that is due either returns or panics. Everything else is a receipt elsewhere.
  · rename_i o ho
    cases h
    rw [ho] at hcallback
    exact .settled hfl hcallback (settled_of_callback ho)
  · rename_i e he
    cases h
    rw [he] at hcallback
    exact .panicked hfl hcallback he
  · rename_i hnone
    rw [hnone] at hcallback
    exact .advanced hfl hcallback hnone h

theorem move_of_step (h : c.step l = some c') : c.Move l c' := by
  cases l with
  | call => exact move_of_call h
  | deliver => exact move_of_deliver h
  | answer id index reply =>
    simp only [step, Option.bind_eq_some_iff] at h
    obtain ⟨fl, hfl, h⟩ := h
    exact .answered hfl (answered_of_advanceAnswer h)
  | tick now =>
    simp only [step] at h
    split at h
    · rename_i hnow
      cases h; exact .tick hnow.1 hnow.2
    · cases h
  | donate amount =>
    simp only [step] at h
    split at h
    · rename_i hbound
      cases h; exact .donate hbound
    · cases h
  | deployManager tlaId manager =>
    simp only [step] at h
    split at h
    · cases h
    · rename_i hself
      cases h; exact .deployManager hself
  | foreign account present =>
    simp only [step] at h
    split at h
    · cases h
    · rename_i hfree
      cases h
      exact .foreign fun l hl => hfree l hl
  | setFtBalance => cases h; exact .setFtBalance

end Chain

/-- The moves of the system: a move of the chain with what the history records of it. -/
inductive System.Moved (s : System) : Label → System → Prop
  | rejected {predecessor : AccountId} {deposit reserve : ℕ} {op : Op}
      (hcall : s.chain.callOutcome predecessor deposit reserve op = none) :
      Moved s (.call predecessor deposit reserve op) s
  | accepted {predecessor : AccountId} {deposit reserve : ℕ} {op : Op} {o : Outcome}
      (hcall : s.chain.callOutcome predecessor deposit reserve op = some o)
      (ho : Accepted (s.chain.callEnv predecessor deposit reserve) s.chain.registry op o) :
      Moved s (.call predecessor deposit reserve op) ⟨s.chain.accept deposit o,
        s.history.recordCall s.chain predecessor deposit reserve op o⟩
  | settled {id : ℕ} {ok : Bool} {fl : Flight} {o : Outcome}
      (hfl : s.chain.flights.get id = some fl) (hcallback : s.chain.callbackOutcome id = some o)
      (ho : Settled s.chain.registry fl o) :
      Moved s (.deliver id ok) ⟨s.chain.settle id o,
        { s.history with credits := s.history.credits ++ o.credits }⟩
  | panicked {id : ℕ} {ok : Bool} {fl : Flight} {e : ContractError}
      (hfl : s.chain.flights.get id = some fl) (hcallback : s.chain.callbackOutcome id = none)
      (he : fl.callback s.chain.registry = some (.error e)) :
      Moved s (.deliver id ok) ⟨s.chain.setFlight id (.panicked fl),
        s.history.recordReceipt s.chain id ok fl⟩
  | advanced {id : ℕ} {ok : Bool} {fl : Flight} {c' : Chain}
      (hfl : s.chain.flights.get id = some fl) (hcallback : s.chain.callbackOutcome id = none)
      (hnone : fl.callback s.chain.registry = none)
      (hadvance : s.chain.advance id ok fl = some c') :
      Moved s (.deliver id ok) ⟨c', s.history.recordReceipt s.chain id ok fl⟩
  | answered {id index : ℕ} {reply : Reply} {fl : Flight} {c' : Chain}
      (hfl : s.chain.flights.get id = some fl) (hanswer : s.chain.Answered id fl c') :
      Moved s (.answer id index reply) ⟨c', s.history⟩
  | tick {now : ℕ} : Moved s (.tick now) ⟨{ s.chain with now }, s.history⟩
  | donate {amount : ℕ} :
      Moved s (.donate amount) ⟨{ s.chain with balance := s.chain.balance + amount }, s.history⟩
  | deployManager {tlaId : AccountId} {manager : Option TlaManager} :
      Moved s (.deployManager tlaId manager)
        ⟨{ s.chain with managers := Function.update s.chain.managers tlaId manager }, s.history⟩
  | foreign {account : AccountId} {present : Bool} :
      Moved s (.foreign account present)
        ⟨s.chain.setAccount account (if present then .foreign else .absent), s.history⟩
  | setFtBalance {token account : AccountId} {amount : ℕ} :
      Moved s (.setFtBalance token account amount)
        ⟨s.chain.setFtBalance token account amount, s.history⟩

theorem System.moved_of_step {s s' : System} {l : Label} (h : s.step l = some s') :
    s.Moved l s' := by
  obtain ⟨hchain, hhist⟩ := System.step_eq_some.mp h
  obtain ⟨c', h'⟩ := s'
  cases hhist
  cases Chain.move_of_step hchain with
  | rejected hcall =>
    simp only [hcall, Option.elim_none]
    exact .rejected hcall
  | accepted hcall _ _ ho =>
    simp only [hcall, Option.elim_some]
    exact .accepted hcall ho
  | settled hfl hcallback ho =>
    simp only [hcallback]
    exact .settled hfl hcallback ho
  | panicked hfl hcallback he =>
    simp only [hcallback, hfl, Option.elim_some]
    exact .panicked hfl hcallback he
  | advanced hfl hcallback hnone hadvance =>
    simp only [hcallback, hfl, Option.elim_some]
    exact .advanced hfl hcallback hnone hadvance
  | answered hfl hanswer => exact .answered hfl hanswer
  | tick => exact .tick
  | donate => exact .donate
  | deployManager => exact .deployManager
  | foreign => exact .foreign
  | setFtBalance => exact .setFtBalance

theorem System.eq_of_accepted {s s' : System} {predecessor : AccountId} {deposit reserve : ℕ}
    {op : Op} {o : Outcome} (h : s.step (.call predecessor deposit reserve op) = some s')
    (hcall : s.chain.callOutcome predecessor deposit reserve op = some o) :
    s' = ⟨s.chain.accept deposit o,
      s.history.recordCall s.chain predecessor deposit reserve op o⟩ := by
  cases System.moved_of_step h with
  | rejected hnone => cases hcall.symm.trans hnone
  | accepted hcall' => cases hcall.symm.trans hcall'; rfl

/-- What a delivery to a chain in flight does to the system. -/
inductive System.Delivered (s : System) (id : ℕ) (ok : Bool) (fl : Flight) (s' : System) : Prop
  | settled {o : Outcome} (ho : Settled s.chain.registry fl o)
      (hchain : s'.chain = s.chain.settle id o)
      (hhist : s'.history = { s.history with credits := s.history.credits ++ o.credits })
  | panicked {e : ContractError} (he : fl.callback s.chain.registry = some (.error e))
      (hchain : s'.chain = s.chain.setFlight id (.panicked fl))
      (hhist : s'.history = s.history.recordReceipt s.chain id ok fl)
  | advanced (hnone : fl.callback s.chain.registry = none)
      (hadvance : s.chain.advance id ok fl = some s'.chain)
      (hhist : s'.history = s.history.recordReceipt s.chain id ok fl)

theorem System.delivered_of_step {s s' : System} {id : ℕ} {ok : Bool} {fl : Flight}
    (hfl : s.chain.flights.get id = some fl) (hstep : s.step (.deliver id ok) = some s') :
    s.Delivered id ok fl s' := by
  -- Each case names the flight again; it is the one at `id`.
  cases System.moved_of_step hstep with
  | settled hfl' _ ho =>
    cases hfl.symm.trans hfl'
    exact .settled ho rfl rfl
  | panicked hfl' _ he =>
    cases hfl.symm.trans hfl'
    exact .panicked he rfl rfl
  | advanced hfl' _ hnone hadvance =>
    cases hfl.symm.trans hfl'
    exact .advanced hnone hadvance rfl

end HosTla
