-- SUMMARY: Chains of which all receipts succeed while nothing else happens, and the one way in which each of them ends.
import HosTla.Liveness.Work
import HosTla.Safety.Balances

/-!
# Undisturbed chains

Between the call that opens a chain and its last callback anything can happen. Here only the
receipts of the chain itself run, they have gas and funds enough, and the tokens say the
truth. Which tokens answer first is still open. Each stage of a chain then leads to the next
one, and the fan-outs to their callback.
-/

namespace HosTla

open Foundation

/-- A receipt of the chain itself, which has gas and funds enough and so succeeds if the
contract that runs it does, or a token that answers with the balance it keeps. -/
def Own (id : ℕ) (_ : Chain) (l : Label) : Prop :=
  l = .deliver id true ∨ ∃ index, l = .answer id index .honest

namespace Chain

variable {c c' : Chain} {id : ℕ} {fl : Flight}

theorem step_of_ended (hended : c.flights.get id = none) (l : Label) (hown : Own id c l) :
    c.step l = none := by
  rcases hown with rfl | ⟨index, rfl⟩ <;> simp only [step, hended, Option.bind_none]

/-- Left to itself, the chain `id` comes to its end in whatever order its receipts and the
answers of its tokens arrive, and the state then is always `c'`. -/
structure EndsIn (c : Chain) (id : ℕ) (c' : Chain) : Prop where
  ended : c'.flights.get id = none
  always : Inevitable Chain.step (Own id) (· = c') c

theorem EndsIn.exists_run (h : c.EndsIn id c') :
    ∃ tr, Run Chain.step c tr c' ∧ Meets (Own id) tr := by
  obtain ⟨tr, c₁, hrun, hmeets, rfl⟩ := h.always.exists_run
  exact ⟨tr, hrun, hmeets⟩

/-! ## One stage -/

theorem setFlight_setFlight (c : Chain) (id : ℕ) (fl fl' : Flight) :
    (c.setFlight id fl).setFlight id fl' = c.setFlight id fl' := by
  simp only [setFlight, LookupMap.insert_overwrite]

theorem dropFlight_setFlight (c : Chain) (id : ℕ) (fl : Flight) :
    (c.setFlight id fl).dropFlight id = c.dropFlight id := by
  simp only [setFlight, dropFlight, LookupMap.remove_overwrite]

/-- A chain that waits for no token goes on with its receipt. -/
theorem inevitable_deliver {final : Chain → Prop} {fl : Flight}
    (hquery : ∀ (c : Chain) index, c.advanceAnswer id index .honest fl = none)
    (hdeliver : (c.setFlight id fl).step (.deliver id true) = some c')
    (h : Inevitable Chain.step (Own id) final c') :
    Inevitable Chain.step (Own id) final (c.setFlight id fl) := by
  have hfl : (c.setFlight id fl).flights.get id = some fl := LookupMap.get_insert_self _ _ _
  refine .later ⟨_, c', .inl rfl, hdeliver⟩ ?_
  rintro l c₁ (rfl | ⟨index, rfl⟩) hstep
  · cases hdeliver.symm.trans hstep
    exact h
  · simp only [step, hfl, Option.bind_some, hquery] at hstep
    cases hstep

/-- What a receipt does does not depend on the stage it is the receipt of. -/
theorem advance_setFlight (ok : Bool) (fl fl' : Flight) :
    (c.setFlight id fl).advance id ok fl' = c.advance id ok fl' := by
  cases fl' with
  | sweepTransfer =>
    simp only [advance, advanceSweep, setFtBalance, setFlight, dropFlight,
      LookupMap.remove_overwrite]
  | _ =>
    simp only [advance, advanceCreateCall, advanceCreateBatch, advanceRefundTransfer,
      advanceFinalizeCall, advanceDeleteAccount, advanceExportCall, advanceAddKey,
      advanceExportResolved, advanceTransferCall, advanceSweep, setFlight_setFlight,
      dropFlight_setFlight] <;> rfl

theorem step_deliver (fl : Flight) (hcallback : fl.callback c.registry = none) :
    (c.setFlight id fl).step (.deliver id true) = c.advance id true fl := by
  have hfl : (c.setFlight id fl).flights.get id = some fl := LookupMap.get_insert_self _ _ _
  have hcallback' : fl.callback (c.setFlight id fl).registry = none := hcallback
  simp only [step, hfl, Option.bind_some, hcallback', advance_setFlight]

theorem inevitable_advance {final : Chain → Prop} {fl : Flight}
    (hquery : ∀ (c : Chain) index, c.advanceAnswer id index .honest fl = none)
    (hcallback : fl.callback c.registry = none) (hadvance : c.advance id true fl = some c')
    (h : Inevitable Chain.step (Own id) final c') :
    Inevitable Chain.step (Own id) final (c.setFlight id fl) :=
  inevitable_deliver hquery ((step_deliver fl hcallback).trans hadvance) h

theorem inevitable_callback {final : Chain → Prop} {fl : Flight} {o : Outcome}
    (hquery : ∀ (c : Chain) index, c.advanceAnswer id index .honest fl = none)
    (hcallback : fl.callback c.registry = some (.ok o))
    (h : Inevitable Chain.step (Own id) final ((c.setFlight id fl).settle id o)) :
    Inevitable Chain.step (Own id) final (c.setFlight id fl) := by
  refine inevitable_deliver hquery ?_ h
  have hfl : (c.setFlight id fl).flights.get id = some fl := LookupMap.get_insert_self _ _ _
  have hcallback' : fl.callback (c.setFlight id fl).registry = some (.ok o) := hcallback
  simp only [step, hfl, Option.bind_some, hcallback']

/-- The last callback of a chain. -/
theorem inevitable_last {fl : Flight} {o : Outcome} (hfree : c.flights.get id = none)
    (hquery : ∀ (c : Chain) index, c.advanceAnswer id index .honest fl = none)
    (hcallback : fl.callback c.registry = some (.ok o)) (hlast : o.promise = none) :
    Inevitable Chain.step (Own id) (· = { c with registry := o.registry }) (c.setFlight id fl) := by
  refine inevitable_callback hquery hcallback ?_
  have hsettle : (c.setFlight id fl).settle id o = { c with registry := o.registry } := by
    simp only [settle, Outcome.sent, hlast, Option.elim_none, setFlight,
      LookupMap.remove_insert hfree, Nat.sub_zero]
  rw [hsettle]
  exact .done rfl (step_of_ended hfree)

/-- A callback that goes on with the chain, and sends no NEAR. -/
theorem settle_next {fl : Flight} {o : Outcome} {p : Promise} (hp : o.promise = some p)
    (hsent : p.attachedDeposit = 0) :
    (c.setFlight id fl).settle id o = { c with registry := o.registry }.setFlight id p.flight := by
  simp only [settle, Outcome.sent, hp, Option.elim_some, setFlight, hsent,
    LookupMap.insert_overwrite, Nat.sub_zero]

theorem dropFlight_eq (hfree : c.flights.get id = none) : c.dropFlight id = c := by
  have hflights : c.flights.remove id = c.flights := by
    ext1 i
    rw [LookupMap.get_remove]
    split
    · subst i
      exact hfree.symm
    · rfl
  simp only [dropFlight, hflights]

/-- The last receipt of a chain without a callback. -/
theorem inevitable_drop {fl : Flight} (hfree : c.flights.get id = none)
    (hquery : ∀ (c : Chain) index, c.advanceAnswer id index .honest fl = none)
    (hcallback : fl.callback c.registry = none)
    (hadvance : c.advance id true fl = some (c'.dropFlight id)) (hsame : c'.flights = c.flights) :
    Inevitable Chain.step (Own id) (· = c') (c.setFlight id fl) := by
  have hfree' : c'.flights.get id = none := hsame ▸ hfree
  rw [dropFlight_eq hfree'] at hadvance
  exact inevitable_advance hquery hcallback hadvance (.done rfl (step_of_ended hfree'))

/-- A chain that waits for a token goes on with the answer. -/
theorem inevitable_answer {final : Chain → Prop} {fl : Flight}
    (hcallback : fl.callback c.registry = none) (hadvance : c.advance id true fl = none)
    (hanswer : ∀ index, (c.setFlight id fl).advanceAnswer id index .honest fl = some c')
    (h : Inevitable Chain.step (Own id) final c') :
    Inevitable Chain.step (Own id) final (c.setFlight id fl) := by
  have hstep (index : ℕ) : (c.setFlight id fl).step (.answer id index .honest) = some c' := by
    have hfl : (c.setFlight id fl).flights.get id = some fl := LookupMap.get_insert_self _ _ _
    simp only [step, hfl, Option.bind_some, hanswer]
  refine .later ⟨_, c', .inr ⟨0, rfl⟩, hstep 0⟩ ?_
  rintro l c₁ (rfl | ⟨index, rfl⟩) hstep₁
  · rw [step_deliver fl hcallback, hadvance] at hstep₁
    cases hstep₁
  · cases (hstep index).symm.trans hstep₁
    exact h

/-! ## Fan-outs -/

/-- The answers that are in are the truth. -/
def Honest (c : Chain) (a : AccountId) : List AccountId → List (Option PromiseResult) → Prop :=
  List.Forall₂ fun token answer =>
    ∀ result, answer = some result → result = c.replyResult token a .honest

theorem honest_none (a : AccountId) (allowlist : List AccountId) :
    c.Honest a allowlist (allowlist.map fun _ => none) := by
  rw [Honest, List.forall₂_map_right_iff, List.forall₂_same]
  intro token _ result h
  cases h

theorem Honest.set {a token : AccountId} {allowlist : List AccountId}
    {answers : List (Option PromiseResult)} (h : c.Honest a allowlist answers) {index : ℕ}
    (htoken : allowlist[index]? = some token) :
    c.Honest a allowlist (answers.set index (some (c.replyResult token a .honest))) := by
  induction h generalizing index with
  | nil => exact .nil
  | cons hanswer hrest ih =>
    cases index with
    | zero =>
      cases htoken
      exact .cons (fun result h => (Option.some.inj h).symm) hrest
    | succ index => exact .cons hanswer (ih htoken)

/-- Once all answers are in, they are what the tokens say. -/
theorem Honest.collected {a : AccountId} {allowlist : List AccountId}
    {answers : List (Option PromiseResult)} (h : c.Honest a allowlist answers)
    {results : List PromiseResult} (hall : collectAnswers answers = some results) :
    results = allowlist.map fun token => c.replyResult token a .honest := by
  rw [eq_map_of_collectAnswers hall, Honest, List.forall₂_map_right_iff] at h
  clear hall
  induction h with
  | nil => rfl
  | cons hanswer _ ih => rw [List.map_cons, ← hanswer _ rfl, ← ih]

/-- A fan-out collects its answers in any order, and goes on with what the tokens say. -/
theorem inevitable_queries {final : Chain → Prop} {a : AccountId} {allowlist : List AccountId}
    (query : List (Option PromiseResult) → Flight)
    (hcallback : ∀ r answers, collectAnswers answers = none → (query answers).callback r = none)
    (hadvance : ∀ (c : Chain) ok answers, c.advance id ok (query answers) = none)
    (hanswer : ∀ (c : Chain) index reply answers, c.advanceAnswer id index reply (query answers) =
      match allowlist[index]?, answers[index]? with
      | some token, some none =>
        some (c.setFlight id (query (answers.set index (some (c.replyResult token a reply)))))
      | _, _ => none)
    (hdone : ∀ answers, collectAnswers answers =
        some (allowlist.map fun token => c.replyResult token a .honest) →
      (∀ (c : Chain) index, c.advanceAnswer id index .honest (query answers) = none) →
      Inevitable Chain.step (Own id) final (c.setFlight id (query answers)))
    {answers : List (Option PromiseResult)} (h : c.Honest a allowlist answers) :
    Inevitable Chain.step (Own id) final (c.setFlight id (query answers)) := by
  -- The induction is on the answers still to come.
  induction hopen : openAnswers answers using Nat.strongRecOn generalizing answers with
  | ind n ih =>
    have hfl : (c.setFlight id (query answers)).flights.get id = some (query answers) :=
      LookupMap.get_insert_self _ _ _
    cases hcollect : collectAnswers answers with
    | some results =>
      refine hdone answers (by rw [hcollect, h.collected hcollect]) fun c index => ?_
      -- No query is open any more.
      rw [hanswer, eq_map_of_collectAnswers hcollect, List.getElem?_map]
      split
      · rename_i hopen
        obtain ⟨result, -, hsome⟩ := Option.map_eq_some_iff.mp hopen
        cases hsome
      · rfl
    | none =>
      obtain ⟨index, token, htoken, hindex⟩ := exists_answer h.length_eq.symm hcollect
      have hstep (index : ℕ) : (c.setFlight id (query answers)).step (.answer id index .honest) =
          (c.setFlight id (query answers)).advanceAnswer id index .honest (query answers) := by
        simp only [step, hfl, Option.bind_some]
      have hgo := hanswer (c.setFlight id (query answers)) index .honest answers
      simp only [htoken, hindex] at hgo
      refine .later ⟨.answer id index .honest, _, .inr ⟨index, rfl⟩, (hstep index).trans hgo⟩ ?_
      · rintro l c₁ (rfl | ⟨index, rfl⟩) hstep₁
        · rw [step_deliver (query answers) (hcallback _ _ hcollect), hadvance] at hstep₁
          cases hstep₁
        · rw [hstep, hanswer] at hstep₁
          split at hstep₁
          · rename_i token htoken hindex
            cases hstep₁
            have hset : c.Honest a allowlist
                (answers.set index (some (c.replyResult token a .honest))) := h.set htoken
            have hfewer := openAnswers_set_lt hindex (c.replyResult token a .honest)
            have hnext := ih _ (hopen ▸ hfewer) hset rfl
            simpa only [setFlight, LookupMap.insert_overwrite, replyResult] using hnext
          · cases hstep₁

/-! ## The lockers of a registry -/

/-- The lockers there are, and those about to be deployed, take orders of this registry. -/
structure Loyal (c : Chain) : Prop where
  deployed : ∀ a l accessKeys, c.accounts a = .locker l accessKeys → l.registry = c.self
  sent : ∀ id p a l, c.flights.get id = some (.createBatch p a l) → l.registry = c.self

theorem registry_of_managerBatch {p : PendingRent} {a : AccountId} {l : SubAccountLocker}
    (h : c.managerBatch p = some (a, l)) : l.registry = c.self := by
  obtain ⟨m, -, hbatch⟩ := Option.bind_eq_some_iff.mp h
  cases hcreate : m.createSubAccount c.self p.tlaId p.name p.ownerKey with
  | error e => rw [hcreate] at hbatch; cases hbatch
  | ok x =>
    rw [hcreate] at hbatch
    cases hbatch
    rw [(TlaManager.createSubAccount_eq_ok.mp hcreate).2.2]
    rfl

theorem Loyal.setAccount (h : c.Loyal) {a : AccountId} {state : Account}
    (hstate : ∀ l accessKeys, state = .locker l accessKeys → l.registry = c.self) :
    ∀ b l accessKeys, (c.setAccount a state).accounts b = .locker l accessKeys →
      l.registry = c.self := by
  intro b l accessKeys hlocker
  by_cases hb : b = a
  · subst b
    rw [accounts_setAccount_self] at hlocker
    exact hstate l accessKeys hlocker
  · rw [accounts_setAccount_ne hb] at hlocker
    exact h.deployed b l accessKeys hlocker

/-- A receipt rewrites a locker, deploys one of a batch, or deletes one. -/
theorem Loyal.receipt (h : c.Loyal) {ok : Bool} (hfl : c.flights.get id = some fl)
    (hreceipt : c.Receipt id ok fl c') :
    ∀ a l accessKeys, c'.accounts a = .locker l accessKeys → l.registry = c.self := by
  cases hreceipt with
  | created => exact h.setAccount fun l _ heq => by cases heq; exact h.sent _ _ _ _ hfl
  | deleted => exact h.setAccount nofun
  | exportAccepted hlocker | keyAdded _ hlocker | exportResolved hlocker
  | transferred _ hlocker =>
    have hkept := h.deployed _ _ _ hlocker
    exact h.setAccount fun l _ heq => by cases heq; exact hkept
  | _ => exact h.deployed

theorem Loyal.move {l : Label} (h : c.Loyal) (hmove : c.Move l c') (hself : c'.self = c.self) :
    c'.Loyal := by
  constructor
  · rw [hself]
    cases hmove with
    | advanced hfl _ _ hadvance => exact h.receipt hfl (receipt_of_advance hadvance)
    | answered _ hanswer => cases hanswer <;> exact h.deployed
    | @foreign account present =>
      exact h.setAccount fun l _ heq => by cases present <;> cases heq
    | _ => exact h.deployed
  · rw [hself]
    intro i p a locker hget
    rcases hmove.arises hget with hold | harises
    · exact h.sent i p a locker hold
    · generalize hbatch : Flight.createBatch p a locker = fl' at harises
      cases harises with
      | opened | handed =>
        rename_i q _ _ _
        cases q <;> cases hbatch
      | next _ hadvance hnext hget' =>
        subst hbatch
        cases hnext with
        | sweep _ hsweep => cases hsweep
        | createAccepted =>
          cases receipt_of_advance hadvance with
          | createAccepted hbatch =>
            rw [setFlight, LookupMap.get_insert_self] at hget'
            cases hget'
            exact registry_of_managerBatch hbatch
          | createRefused =>
            rcases LookupMap.get_of_get_insert hget' with ⟨-, hnew⟩ | ⟨-, hget'⟩
            · cases hnew
            · rw [setFlight, LookupMap.get_insert_self] at hget'
              cases hget'
          | sweepEnded hsweep => cases hsweep
      | sweepAnswer hsweep =>
        subst hbatch
        cases hsweep
      | _ => cases hbatch

theorem Reached.loyal {g : Genesis} (h : c.Reached g) : c.Loyal := by
  refine h.invariant (I := Loyal) ?_ ?_
  · refine ⟨?_, ?_⟩
    · intro a l accessKeys hlocker
      simp only [Chain.init] at hlocker
      split at hlocker <;> cases hlocker
    · intro id p a l hget
      cases hget
  · intro c l c' hc hstep
    exact hc.move (move_of_step hstep) (self_of_step hstep)

end Chain

end HosTla
