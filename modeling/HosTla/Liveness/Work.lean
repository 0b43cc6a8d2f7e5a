-- SUMMARY: The receipts a call can lead to are bounded, and chains in flight end whatever their receipts answer.
import HosTla.Chain.Configuration
import HosTla.Chain.Receipts
import HosTla.Foundation.Progress
import HosTla.Safety.Gates
import HosTla.Safety.Locks

/-!
# Work in flight

Every chain in flight has a number of receipts it can still lead to, and every receipt
uses up one of them. The longest chain is a reclaim: it asks each token of the allowlist,
and four more receipts end it.
-/

namespace HosTla

open Foundation

/-! ## Work -/

/-- The answers of a fan-out that are still to come. -/
def openAnswers (answers : List (Option PromiseResult)) : ℕ := answers.countP Option.isNone

/-- The receipts a chain can still lead to, with those that return a failed deposit. -/
def Flight.work : Flight → ℕ
  | .createCall _ => 4
  | .createBatch .. => 3
  | .created .. => 1
  | .refundTransfer .. => 3
  | .refundSettled .. => 1
  | .sweepCall .. => 6
  | .sweepBalance .. => 5
  | .sweepQueried .. => 4
  | .sweepDeposit .. => 3
  | .sweepDeposited .. => 2
  | .sweepTransfer .. => 1
  | .reclaimQueries _ _ _ answers => openAnswers answers + 4
  | .finalizeCall .. => 3
  | .deleteAccount .. => 2
  | .reclaimFinalized .. => 1
  | .exportCall .. => 4
  | .addKey .. => 3
  | .exportResolved .. => 2
  | .exportSettled .. => 1
  | .buyQueries _ _ _ answers => openAnswers answers + 3
  | .transferCall .. => 2
  | .sold .. => 1
  | .resaleCall _ => 1
  | .refund .. => 1
  | .panicked _ => 0

/-- The receipts one call can lead to: the queries of a reclaim and the four that follow. -/
def maxWork : ℕ := maxAllowlistSize + 4

theorem openAnswers_map_none (tokens : List AccountId) :
    openAnswers (tokens.map fun _ => none) = tokens.length := by
  induction tokens with
  | nil => rfl
  | cons token tokens ih =>
    unfold openAnswers at ih ⊢
    rw [List.map_cons, List.countP_cons, ih]
    rfl

theorem openAnswers_set_lt {answers : List (Option PromiseResult)} {index : ℕ}
    (hopen : answers[index]? = some none) (result : PromiseResult) :
    openAnswers (answers.set index (some result)) < openAnswers answers := by
  induction answers generalizing index with
  | nil => cases hopen
  | cons answer answers ih =>
    cases index with
    | zero =>
      cases hopen
      simp [openAnswers]
    | succ index =>
      have htail := @ih index hopen
      simp only [openAnswers, List.set_cons_succ, List.countP_cons] at htail ⊢
      omega

theorem exists_open_of_collectAnswers {answers : List (Option PromiseResult)}
    (h : collectAnswers answers = none) : ∃ index : ℕ, answers[index]? = some none := by
  induction answers with
  | nil => cases h
  | cons answer answers ih =>
    cases answer with
    | none => exact ⟨0, rfl⟩
    | some result =>
      obtain ⟨index, hopen⟩ := ih (Option.map_eq_none_iff.mp h)
      exact ⟨index + 1, hopen⟩

/-! ## What a step does to the work -/

/-- A promise opens at most `maxWork` receipts. -/
theorem Accepted.work_le {env : Env} {r : TlaRegistry} {op : Op} {o : Outcome} {p : Promise}
    (hr : r.Listed) (h : Accepted env r op o) (hp : o.promise = some p) :
    p.flight.work ≤ maxWork := by
  have hft : r.ftAllowlist.elems.length ≤ maxAllowlistSize := hr.ft
  have hmax : maxWork = 44 := rfl
  have hsize : maxAllowlistSize = 40 := rfl
  cases h with
  | resale _ hresale =>
    cases hp
    cases p <;> first | (simp only [Promise.flight, Flight.work]; omega) | cases hresale
  | reclaimFinalize | buySubAccount =>
    cases hp
    split
    · simp only [Promise.flight, Flight.work]
      omega
    · simp only [Promise.flight, Flight.work, openAnswers_map_none]
      omega
  | claimRefund | rentSubAccount | reclaimSweepFt | exportSubAccount =>
    cases hp
    simp only [Promise.flight, Flight.work]
    omega
  | _ => cases hp

/-- A callback uses up one receipt, and what it sends is part of the work of its chain. -/
theorem Settled.work_lt {r : TlaRegistry} {fl : Flight} {o : Outcome} (h : Settled r fl o) :
    (o.promise.elim 0 fun p => p.flight.work) < fl.work := by
  cases h <;> simp [Outcome.of, Outcome.withPromise, TlaRegistry.aborted, Promise.flight, Flight.work]

theorem Flight.work_pos_of_callback {r : TlaRegistry} {fl : Flight} {res : Result Outcome}
    (h : fl.callback r = some res) : 0 < fl.work := by
  cases fl <;> first | exact Nat.succ_pos _ | cases h

theorem Flight.work_pos_of_isSweep {fl : Flight} (h : fl.isSweep = true) : 0 < fl.work := by
  cases fl <;> first | exact Nat.succ_pos _ | cases h

namespace Chain

variable {c c' : Chain} {id : ℕ} {ok : Bool} {fl : Flight} {l : Label}

theorem work_lt_of_insert {fl' : Flight} (hfl : c.flights.get id = some fl)
    (hflights : c'.flights = c.flights.insert id fl') (hlt : fl'.work < fl.work) :
    c'.sumFlights Flight.work < c.sumFlights Flight.work := by
  have hsum := sumFlights_setFlight Flight.work hfl fl'
  have heq : c'.sumFlights Flight.work = (c.setFlight id fl').sumFlights Flight.work := by
    unfold sumFlights
    rw [hflights]
    rfl
  omega

theorem work_lt_of_remove (hfl : c.flights.get id = some fl)
    (hflights : c'.flights = c.flights.remove id) (hpos : 0 < fl.work) :
    c'.sumFlights Flight.work < c.sumFlights Flight.work := by
  have hsum : (c.flights.remove id).sum (fun _ f => f.work) + fl.work =
      c.sumFlights Flight.work + 0 := sum_nextFlights Flight.work hfl none
  have heq : c'.sumFlights Flight.work = (c.flights.remove id).sum fun _ f => f.work := by
    unfold sumFlights
    rw [hflights]
  omega

/-- The work of a stage and of the deposit it returns is less than that of the stage before. -/
theorem work_lt_of_send {fl' back : Flight} (hfresh : c.FreshIds)
    (hfl : c.flights.get id = some fl) (hlt : fl'.work + back.work < fl.work) :
    ((c.setFlight id fl').send back).sumFlights Flight.work < c.sumFlights Flight.work := by
  have hsum := sumFlights_send Flight.work hfresh hfl fl' back
  omega

theorem Receipt.work_lt (h : c.Receipt id ok fl c') (hfresh : c.FreshIds)
    (hfl : c.flights.get id = some fl) :
    c'.sumFlights Flight.work < c.sumFlights Flight.work := by
  cases h with
  | createRefused | batchFailed | refundFailed =>
    exact work_lt_of_send hfresh hfl (by simp [Flight.work])
  | refundArrived | swept | resaleEnded => exact work_lt_of_remove hfl rfl Nat.one_pos
  | sweepEnded hsweep => exact work_lt_of_remove hfl rfl (Flight.work_pos_of_isSweep hsweep)
  | _ => exact work_lt_of_insert hfl rfl (by simp [Flight.work])

/-- An answer leaves one query less open. -/
theorem work_lt_of_answer {index : ℕ} {reply : Reply} (hfl : c.flights.get id = some fl)
    (h : c.advanceAnswer id index reply fl = some c') :
    c'.sumFlights Flight.work < c.sumFlights Flight.work := by
  unfold advanceAnswer at h
  split at h
  · split at h
    · rename_i hopen
      cases h
      exact work_lt_of_insert hfl rfl (Nat.add_lt_add_right (openAnswers_set_lt hopen _) _)
    · cases h
  · split at h
    · rename_i hopen
      cases h
      exact work_lt_of_insert hfl rfl (Nat.add_lt_add_right (openAnswers_set_lt hopen _) _)
    · cases h
  · cases h
    exact work_lt_of_insert hfl rfl (by simp [Flight.work])
  · cases h

end Chain

/-! ## Bounded work -/

/-- The labels under which a receipt runs or a token answers. -/
def Label.isReceipt : Label → Bool
  | .deliver .. | .answer .. => true
  | _ => false

namespace Chain

variable {c c' : Chain} {l : Label}

/-- The label is a call that the registry accepts. -/
def accepts (c : Chain) : Label → Bool
  | .call predecessor deposit reserve op => (c.callOutcome predecessor deposit reserve op).isSome
  | _ => false

/-- A receipt uses up work, and an accepted call opens a bounded amount. -/
theorem Reached.work_step {g : Genesis} (h : c.Reached g) (hstep : c.step l = some c') :
    c'.sumFlights Flight.work + (if l.isReceipt then 1 else 0) ≤
      c.sumFlights Flight.work + if c.accepts l then maxWork else 0 := by
  cases move_of_step hstep with
  | accepted hcall _ _ ho =>
    rw [sumFlights_accept Flight.work h.freshIds]
    simp only [Label.isReceipt, accepts, hcall, Option.isSome_some, Bool.false_eq_true, if_false,
      if_true, Nat.add_zero]
    apply Nat.add_le_add_left
    cases hp : Outcome.promise _ with
    | none => exact Nat.zero_le _
    | some p => exact ho.work_le h.listed hp
  | @settled id ok fl o hfl _ ho =>
    have hsum := sumFlights_settle Flight.work hfl o
    have hlt := ho.work_lt
    show (c.settle id o).sumFlights Flight.work + 1 ≤ c.sumFlights Flight.work + 0
    omega
  | @panicked id ok fl e hfl _ he =>
    have hflights : (c.setFlight id (.panicked fl)).flights =
        c.flights.insert id (.panicked fl) := rfl
    exact work_lt_of_insert hfl hflights (Flight.work_pos_of_callback he)
  | advanced hfl _ _ hadvance => exact (receipt_of_advance hadvance).work_lt h.freshIds hfl
  | answered hfl _ =>
    obtain ⟨fl, hfl', hanswer⟩ := Option.bind_eq_some_iff.mp hstep
    exact work_lt_of_answer hfl' hanswer
  | _ => exact Nat.le_add_right _ _

end Chain

/-- However calls and receipts interleave, a run has at most 44 receipts for each call the
registry accepted, those still to come included. -/
theorem receipts_bounded {g : Genesis} {tr : List (Transition Chain Label)} {c : Chain}
    (hrun : Run Chain.step (Chain.init g) tr c) :
    (tr.countP fun t => t.label.isReceipt) + c.sumFlights Flight.work ≤
      maxWork * tr.countP fun t => t.before.accepts t.label := by
  have hstart : (Chain.init g).sumFlights Flight.work = 0 := LookupMap.sum_empty _
  have hstep : ∀ c l c', Reachable Chain.step (Chain.init g) c → c.step l = some c' →
      c'.sumFlights Flight.work + (if l.isReceipt then 1 else 0) ≤
        c.sumFlights Flight.work + if c.accepts l then maxWork else 0 :=
    fun c l c' hc hstep => Chain.Reached.work_step hc hstep
  have hbound := hrun.moves_le hstep
  rwa [hstart, Nat.zero_add] at hbound

theorem receipts_bounded_rented :
    ∃ tr : List (Transition Chain Label), tr.map Transition.label = Sample.rented ∧
      (tr.countP fun t => t.label.isReceipt) +
          Sample.owned.sumFlights Flight.work ≤
        maxWork * tr.countP fun t => t.before.accepts t.label := by
  obtain ⟨tr, hrun, hlabels⟩ := Sample.exists_run Sample.rented Sample.rented_isSome
  exact ⟨tr, hlabels, receipts_bounded hrun⟩

/-! ## The end of the work -/

namespace Chain

variable {c c' : Chain} {id : ℕ} {fl : Flight}

/-- Every chain has ended. A callback that panicked stays as a record. -/
def Quiet (c : Chain) : Prop := ∀ id fl, c.flights.get id = some fl → ∃ fl', fl = .panicked fl'

/-- Where no callback is due and no query is open, the receipt the chain waits for can run. -/
theorem exists_advance (ok : Bool) (hcallback : fl.callback c.registry = none)
    (hpanicked : ∀ fl', fl ≠ .panicked fl')
    (hsweep : ∀ a ft d, fl ≠ .sweepBalance a ft d)
    (hreclaim : ∀ a p allowlist answers, fl ≠ .reclaimQueries a p allowlist answers)
    (hbuy : ∀ a b allowlist answers, fl ≠ .buyQueries a b allowlist answers) :
    ∃ c', c.advance id ok fl = some c' := by
  cases fl with
  | created | refundSettled | reclaimFinalized | exportSettled | sold => cases hcallback
  | panicked fl' => exact absurd rfl (hpanicked fl')
  | sweepBalance a ft d => exact absurd rfl (hsweep a ft d)
  | reclaimQueries a p allowlist answers => exact absurd rfl (hreclaim a p allowlist answers)
  | buyQueries a b allowlist answers => exact absurd rfl (hbuy a b allowlist answers)
  | sweepCall | sweepQueried | sweepDeposited | sweepTransfer =>
    simp only [advance, advanceSweep]
    split
    · try split
      all_goals exact ⟨_, rfl⟩
    · exact ⟨_, rfl⟩
  | _ => exact ⟨_, rfl⟩

/-- An open query of a fan-out can be answered. -/
theorem exists_answer {allowlist : List AccountId} {answers : List (Option PromiseResult)}
    (hasks : answers.length = allowlist.length) (hopen : collectAnswers answers = none) :
    ∃ (index : ℕ) (token : AccountId), allowlist[index]? = some token ∧
      answers[index]? = some none := by
  obtain ⟨index, hindex⟩ := exists_open_of_collectAnswers hopen
  obtain ⟨hlt, -⟩ := List.getElem?_eq_some_iff.mp hindex
  exact ⟨index, allowlist[index], List.getElem?_eq_getElem (hasks ▸ hlt), hindex⟩

/-- A chain that has not ended can go on, whatever its receipt or its query answers. -/
theorem Reached.exists_receipt {g : Genesis} (h : c.Reached g) (hfl : c.flights.get id = some fl)
    (hpanicked : ∀ fl', fl ≠ .panicked fl') (ok : Bool) (reply : ℕ → Reply) :
    (∃ c', c.step (.deliver id ok) = some c') ∨
      ∃ index c', c.step (.answer id index (reply index)) = some c' := by
  cases hcallback : fl.callback c.registry with
  | some res =>
    left
    simp only [step, hfl, Option.bind_some, hcallback]
    cases res <;> exact ⟨_, rfl⟩
  | none =>
    have hadvance (hok : ∃ c', c.advance id ok fl = some c') :
        ∃ c', c.step (.deliver id ok) = some c' := by
      simpa only [step, hfl, Option.bind_some, hcallback] using hok
    cases fl with
    | sweepBalance a ft d =>
      right
      refine ⟨0, ?_⟩
      simp only [step, hfl, Option.bind_some, advanceAnswer]
      exact ⟨_, rfl⟩
    | reclaimQueries a p allowlist answers =>
      right
      obtain ⟨index, token, htoken, hindex⟩ :=
        exists_answer (h.asks hfl).2 (Option.map_eq_none_iff.mp hcallback)
      refine ⟨index, ?_⟩
      simp only [step, hfl, Option.bind_some, advanceAnswer, htoken, hindex]
      exact ⟨_, rfl⟩
    | buyQueries a b allowlist answers =>
      right
      obtain ⟨index, token, htoken, hindex⟩ :=
        exists_answer (h.asks hfl).2 (Option.map_eq_none_iff.mp hcallback)
      refine ⟨index, ?_⟩
      simp only [step, hfl, Option.bind_some, advanceAnswer, htoken, hindex]
      exact ⟨_, rfl⟩
    | _ =>
      exact .inl (hadvance (exists_advance ok hcallback hpanicked (fun _ _ _ h => by cases h)
        (fun _ _ _ _ h => by cases h) (fun _ _ _ _ h => by cases h)))

/-- Every chain reached has a history. -/
theorem Reached.exists_history {g : Genesis} (h : c.Reached g) :
    ∃ s : System, s.Reached g ∧ s.chain = c := by
  obtain ⟨tr, hrun⟩ := h
  induction hrun with
  | nil => exact ⟨System.init g, .refl, rfl⟩
  | @snoc tr c c' l _ hstep ih =>
    obtain ⟨s, hs, rfl⟩ := ih
    exact ⟨⟨c', s.history.record s.chain l⟩, hs.snoc (System.step_eq_some.mpr ⟨hstep, rfl⟩), rfl⟩

theorem Quiet.not_locked {g : Genesis} (hquiet : c.Quiet) (h : c.Reached g) (key : Str) :
    ¬ c.registry.SaleLocked key := by
  intro hlocked
  obtain ⟨s, hs, rfl⟩ := h.exists_history
  obtain ⟨id, t, hsale⟩ := hs.unwedged key (TlaRegistry.settling_lot hlocked)
  obtain ⟨b, hb, -⟩ := Option.map_eq_some_iff.mp hsale
  obtain ⟨fl, hfl, hselling⟩ := Option.bind_eq_some_iff.mp hb
  obtain ⟨fl', rfl⟩ := hquiet id fl hfl
  cases hselling

theorem Quiet.nativeTotal_eq (hquiet : c.Quiet) : c.nativeTotal = c.balance := by
  have hzero : c.flights.sum (fun _ fl => fl.native) = 0 := by
    apply Finset.sum_eq_zero
    intro id _
    cases hfl : c.flights.get id with
    | none => exact LookupMap.weight_none hfl
    | some fl =>
      obtain ⟨fl', rfl⟩ := hquiet id fl hfl
      rw [LookupMap.weight_some hfl]
      rfl
  rw [nativeTotal, hzero, Nat.add_zero]

end Chain

/-- A step that only runs a receipt, or answers a query, as the policy says. -/
def Label.Follows (result : Chain → ℕ → Bool) (reply : Chain → ℕ → ℕ → Reply) (c : Chain)
    (l : Label) : Prop :=
  (∃ id, l = .deliver id (result c id)) ∨ ∃ id index, l = .answer id index (reply c id index)

/-- From every state reached, and whatever results the receipts and the tokens give, the
chains in flight end with no further call. Then no sale is locked and no NEAR of the
registry is under way. -/
theorem flights_end {g : Genesis} {c : Chain} (h : c.Reached g) (result : Chain → ℕ → Bool)
    (reply : Chain → ℕ → ℕ → Reply) :
    ∃ tr c', Run Chain.step c tr c' ∧ Meets (Label.Follows result reply) tr ∧
      tr.length ≤ c.sumFlights Flight.work ∧ c'.Quiet ∧
      (∀ key, ¬ c'.registry.SaleLocked key) ∧ c'.nativeTotal = c'.balance := by
  have hlower : ∀ c l c', Reachable Chain.step (Chain.init g) c → Label.Follows result reply c l →
      c.step l = some c' → c'.sumFlights Flight.work < c.sumFlights Flight.work := by
    rintro c l c' hc (⟨id, rfl⟩ | ⟨id, index, rfl⟩) hstep
    · exact Chain.Reached.work_step hc hstep
    · exact Chain.Reached.work_step hc hstep
  have hnext : ∀ c, Reachable Chain.step (Chain.init g) c → ¬ c.Quiet →
      ∃ l c', Label.Follows result reply c l ∧ c.step l = some c' := by
    intro c hc hnot
    -- Some chain has not ended, and it can go on.
    simp only [Chain.Quiet, not_forall, not_exists] at hnot
    obtain ⟨id, fl, hfl, hpanicked⟩ := hnot
    rcases Chain.Reached.exists_receipt hc hfl hpanicked (result c id) (reply c id) with
      ⟨c', hstep⟩ | ⟨index, c', hstep⟩
    · exact ⟨_, c', .inl ⟨id, rfl⟩, hstep⟩
    · exact ⟨_, c', .inr ⟨id, index, rfl⟩, hstep⟩
  obtain ⟨tr, c', hrun, hmeets, hlen, hquiet⟩ := h.exists_run_final hlower hnext
  have h' : c'.Reached g := Reachable.run h hrun
  exact ⟨tr, c', hrun, hmeets, hlen, hquiet, hquiet.not_locked h', hquiet.nativeTotal_eq⟩

/-- Alice's account is under way and every receipt fails. -/
theorem flights_end_renting :
    ∃ tr c', Run Chain.step (Sample.after (Sample.opening ++ [Sample.rent Sample.alice])
        (by decide +kernel)) tr c' ∧
      Meets (Label.Follows (fun _ _ => false) fun _ _ _ => .honest) tr ∧ tr.length ≤ 4 ∧
      c'.Quiet ∧ (∀ key, ¬ c'.registry.SaleLocked key) ∧ c'.nativeTotal = c'.balance := by
  have hrun := flights_end (Sample.reached (Sample.opening ++ [Sample.rent Sample.alice])
    (by decide +kernel)) (fun _ _ => false) fun _ _ _ => .honest
  have hwork : (Sample.after (Sample.opening ++ [Sample.rent Sample.alice])
    (by decide +kernel)).sumFlights Flight.work = 4 := by decide +kernel
  rwa [hwork] at hrun

end HosTla
