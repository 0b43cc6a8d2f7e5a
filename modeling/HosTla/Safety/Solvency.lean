-- SUMMARY: The registry can pay what it owes, as long as no creation batch fails and no creation deposit drops in between.
import HosTla.Safety.Charges
import HosTla.Safety.Refunds

/-!
# Solvency

What the registry owes is its revenue, the pending refunds and the deposits of
unsettled rents and sales. What it has is its balance and the deposits on their way
back to it. A creation that fails in the batch of the manager sends its deposit back
to the manager, and the registry credits it nevertheless.
-/

namespace HosTla

open Foundation

/-! ## What the registry has and owes -/

/-- The deposit the registry holds for a rent or a sale it has not settled. -/
def Flight.held (fl : Flight) : ℕ :=
  (fl.renting.elim 0 fun p => p.attached - p.creationDeposit) +
    fl.selling.elim 0 PendingBuy.deposit

/-- The deposits on their way back to the registry. -/
def Chain.returning (c : Chain) : ℕ := c.sumFlights (Flight.backTo c.self)

def Chain.Solvent (c : Chain) : Prop :=
  c.registry.totalRevenue + c.registry.totalPendingRefunds + c.sumFlights Flight.held ≤
    c.balance + c.returning

instance (c : Chain) : Decidable c.Solvent := inferInstanceAs (Decidable (_ ≤ _))

/-- What a chain in flight may still cost the registry. A creation that has failed
costs the whole deposit, and a failed transfer the refund it restores. -/
def Flight.owed : Flight → ℕ
  | .created p false => p.attached
  | .refundSettled _ amount false => amount
  | fl => fl.held

theorem Flight.held_le_owed (fl : Flight) : fl.held ≤ fl.owed := by
  unfold owed
  split
  · exact Nat.sub_le _ _
  · exact Nat.zero_le _
  · exact Nat.le_refl _

theorem Flight.owed_panicked_le (fl : Flight) : (Flight.panicked fl).owed ≤ fl.owed := by
  cases fl with
  | created p ok => exact (Flight.created p ok).held_le_owed
  | _ => exact Nat.zero_le _

theorem Flight.backTo_le_native (fl : Flight) (account : AccountId) :
    fl.backTo account ≤ fl.native := by
  cases fl with
  | refund receiver amount =>
    simp only [backTo, native]
    split
    · exact Nat.le_refl _
    · exact Nat.zero_le _
  | _ => exact Nat.zero_le _

theorem Flight.isSweep_owed {fl : Flight} (h : fl.isSweep = true) : fl.owed = 0 := by
  cases fl <;> first | rfl | cases h

theorem Flight.isSweep_native {fl : Flight} (h : fl.isSweep = true) : fl.native = 0 := by
  cases fl <;> first | rfl | cases h

theorem Promise.native_flight (p : Promise) : p.flight.native = p.attachedDeposit := by
  cases p <;> rfl

theorem Outcome.native_promise (o : Outcome) :
    (o.promise.elim 0 fun p => p.flight.native) = o.sent := by
  unfold Outcome.sent
  cases o.promise with
  | none => rfl
  | some p => exact p.native_flight

/-! ## The NEAR of the registry -/

/-- A call sends no more than the registry has with the deposit of the call. -/
theorem Accepted.sent_le {env : Env} {r : TlaRegistry} {op : Op} {o : Outcome}
    (h : Accepted env r op o) (hbound : env.attachedDeposit < u128Max)
    (hbalance : env.attachedDeposit ≤ env.accountBalance) : o.sent ≤ env.accountBalance := by
  cases h with
  | claimRefund _ havail => exact le_trans havail (Nat.sub_le _ _)
  | rentSubAccount _ _ _ _ _ _ _ _ hpaid =>
    have hcovered := add_le_of_satAdd_le hpaid hbound
    exact le_trans (le_trans (Nat.le_add_left _ _) hcovered) hbalance
  | @resale _ p _ hp => cases p <;> first | exact Nat.zero_le _ | cases hp
  | reclaimFinalize =>
    simp only [Outcome.sent, Outcome.withPromise, Option.elim_some]
    split <;> exact Nat.zero_le _
  | buySubAccount =>
    simp only [Outcome.sent, Outcome.withPromise, Option.elim_some]
    split <;> exact Nat.zero_le _
  | _ => exact Nat.zero_le _

/-- A callback sends nothing. -/
theorem Settled.sent_eq {r : TlaRegistry} {fl : Flight} {o : Outcome} (h : Settled r fl o) :
    o.sent = 0 := by
  cases h <;> rfl

namespace Chain

variable {c c' : Chain} {l : Label}

theorem nativeTotal_eq (c : Chain) : c.nativeTotal = c.balance + c.sumFlights Flight.native := rfl

/-- No step but a deposit adds to the NEAR of the registry. -/
theorem Move.nativeTotal_lt (hmove : c.Move l c') (hfresh : c.FreshIds)
    (h : c.nativeTotal < u128Max) : c'.nativeTotal < u128Max := by
  rw [nativeTotal_eq] at h ⊢
  cases hmove with
  | @accepted predecessor deposit reserve op o _ hbound _ ho =>
    rw [nativeTotal_eq] at hbound
    have hsent : o.sent ≤ c.balance + deposit :=
      ho.sent_le (show deposit < u128Max by omega) (Nat.le_add_left _ _)
    have hsum := sumFlights_accept Flight.native hfresh deposit o
    have hpromise := o.native_promise
    have hbalance : (c.accept deposit o).balance = c.balance + deposit - o.sent := rfl
    omega
  | @settled id ok fl o hfl _ ho =>
    have hsum := sumFlights_settle Flight.native hfl o
    have hpromise := o.native_promise
    have hbalance : (c.settle id o).balance = c.balance - o.sent := rfl
    have hsent := ho.sent_eq
    omega
  | @panicked id ok fl e hfl =>
    have hsum := sumFlights_setFlight Flight.native hfl (.panicked fl)
    have hbalance : (c.setFlight id (.panicked fl)).balance = c.balance := rfl
    have hzero : (Flight.panicked fl).native = 0 := rfl
    omega
  | @advanced id ok fl c' hfl _ _ hadvance =>
    have hadv := advanced_of_advance hadvance
    obtain ⟨next, back, hnext, hsum⟩ := hadv.sumFlights hfresh hfl
    have hsum := hsum Flight.native
    have hbalance := hadv.balance
    have harrives := fl.backTo_le_native c.self
    -- What was on its way is passed on, sent back or has arrived.
    have hgoes : next.elim 0 Flight.native + (back.elim 0 fun b => (Flight.refund b.1 b.2).native) +
        fl.backTo c.self ≤ fl.native := by
      cases hnext with
      | sweep hs hs' => simp [Flight.isSweep_native, Flight.isSweep_backTo, hs, hs']
      | sweepEnded hs => simp [Flight.isSweep_native, Flight.isSweep_backTo, hs]
      | refundArrived => simpa using harrives
      | _ => simp [Flight.native, Flight.backTo]
    omega
  | @answered id index reply fl c' hfl hanswer =>
    have hsum : c'.sumFlights Flight.native = c.sumFlights Flight.native :=
      hanswer.sumFlights_eq _ hfl (fun fl hs => Flight.isSweep_native hs)
        (fun _ _ _ _ _ => rfl) (fun _ _ _ _ _ => rfl)
    have hbalance : c'.balance = c.balance := hanswer.balance
    omega
  | @donate amount hbound =>
    rw [nativeTotal_eq] at hbound
    have hsum : c.balance + amount + c.sumFlights Flight.native < u128Max := by omega
    exact hsum
  | _ => exact h

theorem Reached.nativeTotal_lt {g : Genesis} (h : c.Reached g) : c.nativeTotal < u128Max := by
  have hboth : c.FreshIds ∧ c.nativeTotal < u128Max := by
    refine h.invariant (I := fun c => c.FreshIds ∧ c.nativeTotal < u128Max) ?_ ?_
    · exact ⟨Reached.freshIds .refl, g.balance_lt⟩
    · rintro c l c' ⟨hfresh, hlt⟩ hstep
      have hmove := move_of_step hstep
      exact ⟨hmove.freshIds hfresh, hmove.nativeTotal_lt hfresh hlt⟩
  exact hboth.2

end Chain

/-! ## The books -/

/-- What a registry state owes by itself. -/
def TlaRegistry.owing (r : TlaRegistry) : ℕ := r.totalRevenue + r.totalPendingRefunds

/-- Credits that are paid for keep the stored total and owe no more. -/
theorem TlaRegistry.credit_books {r r' : TlaRegistry} (cs : List (AccountId × ℕ)) {x y : ℕ}
    (hsummed : r.ledger.Summed) (hroom : r.owing + x ≤ u128Max)
    (hledger : r'.ledger = r.ledger.creditAll u128Max cs)
    (hpaid : r'.totalRevenue + (cs.map Prod.snd).sum + y ≤ r.totalRevenue + x) :
    r'.ledger.Summed ∧ r'.owing + y ≤ r.owing + x := by
  unfold owing at hroom ⊢
  have htotal : r'.totalPendingRefunds ≤ r.totalPendingRefunds + (cs.map Prod.snd).sum := by
    have hle := r.ledger.creditAll_total_le u128Max cs
    rw [← hledger] at hle
    exact hle
  have hfits : r.ledger.total + (cs.map Prod.snd).sum ≤ u128Max := by
    have htotal : r.ledger.total = r.totalPendingRefunds := rfl
    omega
  refine ⟨?_, by omega⟩
  rw [hledger]
  exact hsummed.creditAll hfits

theorem sum_excessCredit (account : AccountId) (excess : ℕ) :
    ((excessCredit account excess).map Prod.snd).sum = excess := by
  unfold excessCredit
  split
  · simp
  · simp; omega

/-- A deposit pays for the charge and the excess that is credited. -/
theorem charged_le {charge deposit : ℕ} (hpaid : charge ≤ deposit) (revenue : ℕ)
    (account : AccountId) :
    satAdd u128Max revenue charge +
        ((excessCredit account (deposit - charge)).map Prod.snd).sum + 0 ≤ revenue + deposit := by
  have hle := satAdd_le u128Max revenue charge
  rw [sum_excessCredit]
  omega

/-- A call owes no more than before together with its deposit. -/
theorem Accepted.books {env : Env} {r : TlaRegistry} {op : Op} {o : Outcome}
    (h : Accepted env r op o) (hbound : env.attachedDeposit < u128Max)
    (hsummed : r.ledger.Summed) (hroom : r.owing + env.attachedDeposit ≤ u128Max) :
    o.registry.ledger.Summed ∧
      o.registry.owing + (o.sent + o.promise.elim 0 fun p => p.flight.owed) ≤
        r.owing + env.attachedDeposit := by
  -- A call without credits may put its deposit into the chain it opens.
  have hpromised (x : ℕ) (hx : x ≤ env.attachedDeposit) :
      r.totalRevenue + (([] : List (AccountId × ℕ)).map Prod.snd).sum + x ≤
        r.totalRevenue + env.attachedDeposit := by
    simpa using hx
  cases h with
  | claimRefund =>
    have hle : r.getPendingRefund env.predecessor ≤ r.totalPendingRefunds :=
      hsummed.balanceOf_le env.predecessor
    refine ⟨hsummed.claim env.predecessor, ?_⟩
    show r.totalRevenue + (r.totalPendingRefunds - r.getPendingRefund env.predecessor) +
      (r.getPendingRefund env.predecessor + 0) ≤
        r.totalRevenue + r.totalPendingRefunds + env.attachedDeposit
    omega
  | @withdraw amount recipient _ _ hrevenue =>
    refine TlaRegistry.credit_books _ hsummed hroom rfl ?_
    show r.totalRevenue - amount + (amount + 0) + 0 ≤ r.totalRevenue + env.attachedDeposit
    omega
  | activateTla _ _ hpaid | renewTla _ _ _ _ _ _ _ hpaid | renewSubAccount _ _ _ _ _ _ _ _ hpaid =>
    exact TlaRegistry.credit_books _ hsummed hroom rfl (charged_le hpaid _ _)
  | rentSubAccount _ _ _ _ _ _ _ _ hpaid =>
    have hcovered := add_le_of_satAdd_le hpaid hbound
    refine TlaRegistry.credit_books [] hsummed hroom rfl (hpromised _ ?_)
    show r.feeConfig.accountCreationDeposit +
      (env.attachedDeposit - r.feeConfig.accountCreationDeposit + 0) ≤ env.attachedDeposit
    omega
  | @resale _ p _ hp =>
    refine TlaRegistry.credit_books [] hsummed hroom rfl (hpromised _ ?_)
    cases p <;> first | exact Nat.zero_le _ | cases hp
  | reclaimFinalize =>
    refine TlaRegistry.credit_books [] hsummed hroom rfl (hpromised _ ?_)
    simp only [Outcome.sent, Outcome.withPromise, Option.elim_some]
    split <;> exact Nat.zero_le _
  | buySubAccount =>
    refine TlaRegistry.credit_books [] hsummed hroom rfl (hpromised _ ?_)
    simp only [Outcome.sent, Outcome.withPromise, Option.elim_some]
    split
    · show 0 + (0 + env.attachedDeposit) ≤ env.attachedDeposit
      omega
    · show 0 + (0 + env.attachedDeposit) ≤ env.attachedDeposit
      omega
  | _ => exact TlaRegistry.credit_books [] hsummed hroom rfl (hpromised 0 (Nat.zero_le _))

/-- A callback owes no more than the chain in flight did before. -/
theorem Settled.books {r : TlaRegistry} {fl : Flight} {o : Outcome} (h : Settled r fl o)
    (hrent : ∀ p, fl.renting = some p → p.rent + p.creationDeposit ≤ p.attached ∧
      p.attached < u128Max)
    (hprice : ∀ b, fl.selling = some b → b.price ≤ b.deposit)
    (hconfig : ∀ p, fl = .created p true →
      p.creationDeposit ≤ r.feeConfig.accountCreationDeposit)
    (hsummed : r.ledger.Summed) (hroom : r.owing + fl.owed ≤ u128Max) :
    o.registry.ledger.Summed ∧
      o.registry.owing + (o.promise.elim 0 fun p => p.flight.owed) ≤ r.owing + fl.owed := by
  cases h with
  | @created p sub hsub =>
    obtain ⟨hcovered, hlt⟩ := hrent p rfl
    have hdeposit := hconfig p rfl
    refine TlaRegistry.credit_books _ hsummed hroom rfl ?_
    rw [sum_excessCredit]
    have hle := satAdd_le u128Max r.totalRevenue p.rent
    -- The excess is at most what is left of the deposit, since the config did not drop.
    have hexcess : p.rent + (p.attached - satAdd u128Max p.rent r.feeConfig.accountCreationDeposit) ≤
        p.attached - p.creationDeposit := by
      unfold satAdd
      omega
    show satAdd u128Max r.totalRevenue p.rent +
      (p.attached - satAdd u128Max p.rent r.feeConfig.accountCreationDeposit) + 0 ≤
        r.totalRevenue + (p.attached - p.creationDeposit + 0)
    omega
  | @creationFailed p =>
    refine TlaRegistry.credit_books _ hsummed hroom rfl ?_
    show r.totalRevenue + (p.attached + 0) + 0 ≤ r.totalRevenue + p.attached
    omega
  | @refundRestored caller amount =>
    refine TlaRegistry.credit_books [(caller, amount)] hsummed hroom rfl ?_
    show r.totalRevenue + (amount + 0) + 0 ≤ r.totalRevenue + amount
    omega
  | @sold b sub hsub =>
    have hle := satAdd_le u128Max r.totalRevenue (r.resaleCommission b.price)
    have hprice := hprice b rfl
    have hcommission : r.resaleCommission b.price ≤ b.price := Nat.min_le_right _ _
    refine TlaRegistry.credit_books _ hsummed hroom rfl ?_
    rw [TlaRegistry.saleCredits, List.map_cons, List.sum_cons, sum_excessCredit]
    show satAdd u128Max r.totalRevenue (r.resaleCommission b.price) +
      (b.price - r.resaleCommission b.price + (b.deposit - b.price)) + 0 ≤
        r.totalRevenue + (0 + b.deposit)
    omega
  | @saleBlocked _ b | @saleVoid b | @saleFailed b =>
    refine TlaRegistry.credit_books [(b.buyer, b.deposit)] hsummed hroom rfl ?_
    show r.totalRevenue + (b.deposit + 0) + 0 ≤ r.totalRevenue + (0 + b.deposit)
    omega
  | _ => exact TlaRegistry.credit_books [] hsummed hroom rfl (Nat.le_refl _)

/-! ## Runs -/

/-- A step that keeps the books: a batch that is to create an account does so, and a
creation is not settled at a lower creation deposit than was forwarded for it. -/
def Chain.KeepsBooks (c : Chain) : Label → Prop
  | .deliver id ok =>
    match c.flights.get id with
    | some (.createBatch _ subAccount _) => ok = true ∧ c.accounts subAccount = .absent
    | some (.created p true) =>
      p.creationDeposit ≤ c.registry.feeConfig.accountCreationDeposit
    | _ => True
  | _ => True

instance (c : Chain) (l : Label) : Decidable (c.KeepsBooks l) := by
  delta Chain.KeepsBooks
  rcases l with _ | ⟨id, _⟩ | _
  · infer_instance
  · dsimp only
    rcases c.flights.get id with _ | (_ | _) <;>
      first | infer_instance | (rename_i ok; rcases ok with _ | _ <;> infer_instance)
  all_goals infer_instance

/-- The books of the registry: the stored total is the sum of the refunds, and what the
chains in flight may still cost is there. -/
structure Chain.Books (c : Chain) : Prop where
  summed : c.registry.ledger.Summed
  covered : c.registry.owing + c.sumFlights Flight.owed ≤ c.balance + c.returning

namespace Chain

variable {c c' : Chain} {l : Label}

theorem returning_le (c : Chain) : c.returning ≤ c.sumFlights Flight.native :=
  LookupMap.sum_le_sum fun _ fl _ => fl.backTo_le_native c.self

theorem Books.solvent (h : c.Books) : c.Solvent := by
  have hheld : c.sumFlights Flight.held ≤ c.sumFlights Flight.owed :=
    LookupMap.sum_le_sum fun _ fl _ => fl.held_le_owed
  have hcovered := h.covered
  unfold TlaRegistry.owing at hcovered
  unfold Solvent
  omega

theorem Books.owing_le (h : c.Books) : c.registry.owing ≤ c.nativeTotal := by
  have hcovered := h.covered
  have hreturning := c.returning_le
  rw [nativeTotal_eq]
  omega

theorem Books.accepted (h : c.Books) (hfresh : c.FreshIds) {predecessor : AccountId}
    {deposit reserve : ℕ} {op : Op} {o : Outcome} (hbound : c.nativeTotal + deposit < u128Max)
    (ho : Accepted (c.callEnv predecessor deposit reserve) c.registry op o) :
    (c.accept deposit o).Books := by
  -- What is owed is covered by NEAR, so no amount comes near the bound of its type.
  have howing := h.owing_le
  obtain ⟨hsummed, hbooks⟩ := ho.books (show deposit < u128Max by omega) h.summed
    (show c.registry.owing + deposit ≤ u128Max by omega)
  refine ⟨hsummed, ?_⟩
  have hcovered := h.covered
  have howed := sumFlights_accept Flight.owed hfresh deposit o
  have hback := sumFlights_accept (Flight.backTo c.self) hfresh deposit o
  have hbalance : (c.accept deposit o).balance = c.balance + deposit - o.sent := rfl
  have hbooks : o.registry.owing + (o.sent + o.promise.elim 0 fun p => p.flight.owed) ≤
    c.registry.owing + deposit := hbooks
  show o.registry.owing + (c.accept deposit o).sumFlights Flight.owed ≤
    (c.accept deposit o).balance + (c.accept deposit o).sumFlights (Flight.backTo c.self)
  unfold returning at hcovered
  omega

theorem Books.settled (h : c.Books) {g : Genesis} (hc : c.Reached g) {id : ℕ} {fl : Flight}
    {o : Outcome} (hfl : c.flights.get id = some fl)
    (hconfig : ∀ p, fl = .created p true →
      p.creationDeposit ≤ c.registry.feeConfig.accountCreationDeposit)
    (ho : Settled c.registry fl o) : (c.settle id o).Books := by
  have hlt := hc.nativeTotal_lt
  rw [nativeTotal_eq] at hlt
  have hcovered := h.covered
  have hreturning := c.returning_le
  have howed_le : fl.owed ≤ c.sumFlights Flight.owed :=
    LookupMap.le_sum (f := fun _ f => Flight.owed f) hfl
  obtain ⟨hsummed, hbooks⟩ := ho.books (fun _ hp => hc.covered hfl hp)
    (fun _ hb => hc.price_le hfl hb) hconfig h.summed (by omega)
  refine ⟨hsummed, ?_⟩
  have howed := sumFlights_settle Flight.owed hfl o
  have hback := sumFlights_settle (Flight.backTo c.self) hfl o
  have hbalance : (c.settle id o).balance = c.balance - o.sent := rfl
  have hsent := ho.sent_eq
  have hnone : fl.backTo c.self = 0 := by cases ho <;> rfl
  show o.registry.owing + (c.settle id o).sumFlights Flight.owed ≤
    (c.settle id o).balance + (c.settle id o).sumFlights (Flight.backTo c.self)
  unfold returning at hcovered
  omega

/-- A step that leaves the registry alone, as far as flights and balance go. -/
theorem Books.congr (h : c.Books) (hreg : c'.registry = c.registry)
    (hflights : c'.sumFlights Flight.owed + c.balance + c.returning ≤
      c.sumFlights Flight.owed + c'.balance + c'.returning) : c'.Books := by
  have hcovered := h.covered
  refine ⟨hreg ▸ h.summed, ?_⟩
  rw [hreg]
  omega

theorem Books.advanced (h : c.Books) {g : Genesis} (hc : c.Reached g) {id : ℕ} {ok : Bool}
    {fl : Flight} (hfl : c.flights.get id = some fl) (hadvance : c.advance id ok fl = some c')
    (hbatch : ∀ p subAccount locker, fl = .createBatch p subAccount locker →
      ok = true ∧ c.accounts subAccount = .absent) : c'.Books := by
  -- The batch of the manager is the one receipt whose deposit does not come back here.
  by_cases hcreate : ∃ p subAccount locker, fl = .createBatch p subAccount locker
  · obtain ⟨p, subAccount, locker, rfl⟩ := hcreate
    have hchain := Option.some.inj hadvance
    rw [advanceCreateBatch, if_pos (hbatch p subAccount locker rfl)] at hchain
    subst hchain
    refine h.congr rfl ?_
    have howed := sumFlights_setFlight Flight.owed hfl (.created p true)
    have hback := sumFlights_setFlight (Flight.backTo c.self) hfl (.created p true)
    have hsame : (Flight.created p true).owed = (Flight.createBatch p subAccount locker).owed := rfl
    have hnone : (Flight.createBatch p subAccount locker).backTo c.self = 0 := rfl
    show (c.setFlight id (.created p true)).sumFlights Flight.owed + c.balance + c.returning ≤
      c.sumFlights Flight.owed + c.balance +
        (c.setFlight id (.created p true)).sumFlights (Flight.backTo c.self)
    unfold returning
    omega
  · have hadv := advanced_of_advance hadvance
    obtain ⟨next, back, hnext, hsum⟩ := hadv.sumFlights hc.freshIds hfl
    refine h.congr hadv.registry ?_
    have hbalance := hadv.balance
    have howed := hsum Flight.owed
    have hback := hsum (Flight.backTo c.self)
    have hself : c'.returning = c'.sumFlights (Flight.backTo c.self) := by
      unfold returning; rw [hadv.self]
    have hgoes : next.elim 0 Flight.owed +
        (back.elim 0 fun b => (Flight.refund b.1 b.2).owed) ≤
        fl.owed + (next.elim 0 (Flight.backTo c.self) +
          back.elim 0 fun b => (Flight.refund b.1 b.2).backTo c.self) := by
      cases hnext with
      -- The manager refused, so the creation deposit is on its way back.
      | @createRefused p =>
        have hcovered := (hc.covered hfl rfl).1
        show p.attached + 0 ≤ (p.attached - p.creationDeposit + 0) +
          (0 + if c.self = c.self then p.creationDeposit else 0)
        rw [if_pos rfl]
        omega
      | batchFailed => exact absurd ⟨_, _, _, rfl⟩ hcreate
      | @refundFailed caller amount =>
        show amount + 0 ≤ 0 + (0 + if c.self = c.self then amount else 0)
        rw [if_pos rfl]
        omega
      | sweep hs hs' => simp [Flight.isSweep_owed, hs']
      | sweepEnded hs => simp
      | _ => exact Nat.le_refl _
    rw [hself]
    unfold returning at *
    omega

theorem Books.step {g : Genesis} (hc : c.Reached g) (h : c.Books) (hstep : c.step l = some c')
    (hkeeps : c.KeepsBooks l) : c'.Books := by
  cases move_of_step hstep with
  | rejected => exact h
  | accepted _ hbound _ ho => exact h.accepted hc.freshIds hbound ho
  | settled hfl _ ho =>
    refine h.settled hc hfl ?_ ho
    rintro p rfl
    rwa [KeepsBooks, hfl] at hkeeps
  | @panicked id ok fl e hfl _ he =>
    refine h.congr rfl ?_
    have howed := sumFlights_setFlight Flight.owed hfl (.panicked fl)
    have hback := sumFlights_setFlight (Flight.backTo c.self) hfl (.panicked fl)
    have hle := fl.owed_panicked_le
    have hnone : fl.backTo c.self = 0 := by
      cases fl <;> first | rfl | cases he
    show (c.setFlight id (.panicked fl)).sumFlights Flight.owed + c.balance + c.returning ≤
      c.sumFlights Flight.owed + c.balance +
        (c.setFlight id (.panicked fl)).sumFlights (Flight.backTo c.self)
    unfold returning
    omega
  | @advanced id ok fl c' hfl _ _ hadvance =>
    refine h.advanced hc hfl hadvance ?_
    rintro p subAccount locker rfl
    rwa [KeepsBooks, hfl] at hkeeps
  | answered hfl hanswer =>
    refine h.congr hanswer.registry ?_
    have howed := hanswer.sumFlights_eq Flight.owed hfl (fun fl hs => Flight.isSweep_owed hs)
      (fun _ _ _ _ _ => rfl) (fun _ _ _ _ _ => rfl)
    have hback := hanswer.sumFlights_eq (Flight.backTo c.self) hfl
      (fun fl hs => Flight.isSweep_backTo hs _) (fun _ _ _ _ _ => rfl) (fun _ _ _ _ _ => rfl)
    unfold returning
    rw [howed, hanswer.balance, hanswer.self, hback]
  | @donate amount =>
    refine h.congr rfl ?_
    show c.sumFlights Flight.owed + c.balance + c.returning ≤
      c.sumFlights Flight.owed + (c.balance + amount) + c.returning
    omega
  | _ => exact h.congr rfl (Nat.le_refl _)

end Chain

/-- In a run in which no creation batch fails and no creation is settled at a lower
creation deposit than was forwarded, the registry is solvent in every state. -/
theorem solvent_of_run {g : Genesis} {tr : List (Transition Chain Label)} {c : Chain}
    (hrun : Run Chain.step (Chain.init g) tr c) (hkeeps : Meets Chain.KeepsBooks tr) :
    c.Solvent := by
  have hbooks : c.Books := by
    refine hrun.guarded (I := Chain.Books) ?_ ?_ hkeeps
    · exact ⟨rfl, Nat.zero_le _⟩
    · intro c l c' hc h hkeeps hstep
      exact h.step hc hstep hkeeps
  exact hbooks.solvent

/-! ## A name that was exported -/

namespace Sample

/-- The export of `n.hos`. It uses up the ids 3 and 4. -/
def exported : List Label :=
  rented ++ [call admin 0 (.exportSubAccount tla name), .deliver 3 true, .deliver 3 true,
    .deliver 3 true, .deliver 3 true]

/-- Bob rents the name. The account is still there, so the batch fails. -/
def rentedAgain : List Label :=
  exported ++ [rent bob, .deliver 5 true, .deliver 5 true, .deliver 5 true]

end Sample

/-- The whole deposit is credited to Bob and its creation deposit is with the manager. -/
theorem insolvent_after_export :
    ∃ c : Chain, c.Reached Sample.genesis ∧ ¬ c.Solvent := by
  refine ⟨Sample.after Sample.rentedAgain (by decide +kernel), Sample.reached _ _, ?_⟩
  decide +kernel

theorem solvent_of_run_rented :
    (Sample.after Sample.rented (by decide +kernel)).Solvent := by
  obtain ⟨tr, hrun, hkeeps⟩ := Sample.exists_run_meets Chain.KeepsBooks Sample.rented
    (by decide +kernel) (by decide +kernel)
  exact solvent_of_run hrun hkeeps

end HosTla
