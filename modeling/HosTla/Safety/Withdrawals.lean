-- SUMMARY: After a withdrawal the balance covers every queued refund, whatever the order of the claims, as long as no credit has saturated.
import HosTla.Safety.Rollbacks
import HosTla.Safety.Solvency

/-!
# Withdrawals

A withdrawal is checked against the stored total, and each claim against its own entry. The
total stands for the entries while it is their sum.
-/

namespace HosTla

open Foundation

/-- The accounts that wait for a refund, each of them once. -/
def TlaRegistry.Claimants (r : TlaRegistry) (order : List AccountId) : Prop :=
  order.Nodup ∧ ∀ a, a ∈ order ↔ r.getPendingRefund a ≠ 0

theorem TlaRegistry.Claimants.of_keys {r : TlaRegistry} {order : List AccountId}
    (hnodup : order.Nodup) (hpos : ∀ a ∈ order, r.getPendingRefund a ≠ 0)
    (hkeys : ∀ a ∈ r.pendingRefunds.keys, a ∈ order) : r.Claimants order := by
  refine ⟨hnodup, fun a => ⟨hpos a, fun hne => hkeys a ?_⟩⟩
  rw [r.pendingRefunds.mem_keys, Option.isSome_iff_ne_none]
  intro hnone
  exact hne (by rw [TlaRegistry.getPendingRefund, hnone]; rfl)

namespace Chain

/-- `claim_refund` by one account after the other, all of them accepted. Each transfer takes
its amount off the balance. -/
def claimEach (reserve : ℕ) (c : Chain) : List AccountId → Option Chain
  | [] => some c
  | a :: as =>
    (c.callOutcome a 0 reserve .claimRefund).bind fun o => claimEach reserve (c.accept 0 o) as

variable {c : Chain} {reserve : ℕ}

theorem callOutcome_claimRefund {a : AccountId} {o : Outcome} :
    c.callOutcome a 0 reserve .claimRefund = some o ↔
      c.registry.ledger.balanceOf a ≠ 0 ∧
        c.registry.ledger.balanceOf a ≤ c.balance - reserve ∧
        o = .withPromise { c.registry with
          pendingRefunds := (c.registry.ledger.claim a).pending
          totalPendingRefunds := (c.registry.ledger.claim a).total }
        (.transferRefund a (c.registry.ledger.balanceOf a)) := by
  have hrun : c.callOutcome a 0 reserve .claimRefund =
      (c.registry.claimRefund (c.callEnv a 0 reserve)).toOption :=
    if_neg fun hdeposit => hdeposit.1 rfl
  rw [hrun, toOption_eq_some]
  simp only [TlaRegistry.claimRefund, bind_eq_ok, rejectIf_eq_ok, pure_eq_ok, not_lt]
  constructor
  · rintro ⟨-, hpos, -, havail, rfl⟩
    exact ⟨hpos, havail, rfl⟩
  · rintro ⟨hpos, havail, rfl⟩
    exact ⟨(), hpos, (), havail, rfl⟩

theorem claimEach_isSome {order : List AccountId} :
    (claimEach reserve c order).isSome = true ↔
      c.registry.ledger.Pays (c.balance - reserve) order := by
  induction order generalizing c with
  | nil => simp [claimEach, PullLedger.Pays]
  | cons a as ih =>
    rw [claimEach, PullLedger.Pays, Option.isSome_bind, Option.any_eq_true]
    constructor
    · rintro ⟨o, ho, hrest⟩
      obtain ⟨hpos, havail, rfl⟩ := callOutcome_claimRefund.mp ho
      refine ⟨hpos, havail, ?_⟩
      rw [Nat.sub_right_comm]
      exact ih.mp hrest
    · rintro ⟨hpos, havail, hrest⟩
      refine ⟨_, callOutcome_claimRefund.mpr ⟨hpos, havail, rfl⟩, ih.mpr ?_⟩
      rw [Nat.sub_right_comm] at hrest
      exact hrest

end Chain

/-- The claims of all claimants go through exactly if the balance covers the entries. -/
theorem TlaRegistry.Claimants.claimEach_isSome {c : Chain} {reserve : ℕ} {order : List AccountId}
    (h : c.registry.Claimants order) :
    (Chain.claimEach reserve c order).isSome = true ↔
      (c.registry.pendingRefunds.sum fun _ amount => amount) ≤ c.balance - reserve := by
  obtain ⟨hnodup, hall⟩ := h
  have hall : ∀ a, a ∈ order ↔ c.registry.ledger.balanceOf a ≠ 0 := hall
  rw [Chain.claimEach_isSome, PullLedger.pays_iff hnodup fun a ha => (hall a).mp ha,
    PullLedger.sum_map_balanceOf hnodup hall]
  rfl

/-- A withdrawal is a credit that the balance has room for next to the total. -/
theorem Accepted.withdrawal {env : Env} {r : TlaRegistry} {amount : ℕ} {recipient : AccountId}
    {o : Outcome} (h : Accepted env r (.withdraw amount recipient) o) :
    o.promise = none ∧ o.registry.ledger = r.ledger.credit u128Max recipient amount ∧
      satAdd u128Max r.totalPendingRefunds amount ≤ env.availableBalance := by
  cases h with
  | configured hop => cases hop
  | resale hop => cases hop
  | withdraw _ _ _ havail => exact ⟨rfl, rfl, havail⟩

/-- The total that was checked is the sum of the entries after the credit. -/
theorem sum_le_of_withdrawal {r r' : TlaRegistry} {recipient : AccountId} {amount funds : ℕ}
    (hledger : r'.ledger = r.ledger.credit u128Max recipient amount) (hsummed : r.ledger.Summed)
    (havail : satAdd u128Max r.totalPendingRefunds amount ≤ funds) (hfunds : funds < u128Max) :
    (r'.pendingRefunds.sum fun _ amount => amount) ≤ funds := by
  have hroom : r.ledger.total + amount ≤ funds := add_le_of_satAdd_le havail hfunds
  have htotal : r'.ledger.total = r.ledger.total + amount := by
    rw [hledger]
    exact satAdd_eq (by omega)
  have hsummed' : r'.ledger.Summed := by
    rw [hledger]
    exact hsummed.credit (by omega)
  calc (r'.pendingRefunds.sum fun _ amount => amount) = r'.ledger.total := hsummed'.symm
    _ = r.ledger.total + amount := htotal
    _ ≤ funds := hroom

/-- Right after a withdrawal all queued refunds can be claimed, in every order, exactly if
the balance covers them together. It does as long as all credits are below 2^128. -/
theorem withdrawal_leaves_payable {g : Genesis} {s : System} (hs : s.Reached g)
    {admin recipient : AccountId} {amount reserve : ℕ} {o : Outcome}
    (hcall : s.chain.callOutcome admin 0 reserve (.withdraw amount recipient) = some o)
    {order : List AccountId} (horder : o.registry.Claimants order) :
    ((Chain.claimEach reserve (s.chain.accept 0 o) order).isSome = true ↔
        (o.registry.pendingRefunds.sum fun _ amount => amount) ≤ s.chain.balance - reserve) ∧
      ((s.history.credits.map Prod.snd).sum < 2 ^ 128 →
        (Chain.claimEach reserve (s.chain.accept 0 o) order).isSome = true) := by
  obtain ⟨hpromise, hledger, havail⟩ := (Chain.accepted_of_callOutcome hcall).2.withdrawal
  have hbalance : (s.chain.accept 0 o).balance = s.chain.balance := by
    simp [Chain.accept, Outcome.sent, hpromise]
  have hclaims : (Chain.claimEach reserve (s.chain.accept 0 o) order).isSome = true ↔
      (o.registry.pendingRefunds.sum fun _ amount => amount) ≤ s.chain.balance - reserve := by
    rw [← hbalance]
    exact TlaRegistry.Claimants.claimEach_isSome (c := s.chain.accept 0 o) horder
  refine ⟨hclaims, fun hcredits => hclaims.mpr ?_⟩
  have hlt := Chain.Reached.nativeTotal_lt (System.Reached.chain hs)
  rw [Chain.nativeTotal_eq] at hlt
  have htotal : s.credited.total = (s.history.credits.map Prod.snd).sum := by
    rw [System.credited, PullLedger.Tally.addAll_total]
    exact Nat.zero_add _
  have hbooks := hs.balanced (by rw [htotal]; unfold u128Max; omega)
  exact sum_le_of_withdrawal hledger hbooks.summed havail (by omega)

namespace Sample

/-- After the two refunds that are not backed the total is one short of `2 ^ 128`. Alice
claims hers, and the total drops below what waits for Bob. -/
def understated : List Label :=
  unbacked ++ unbackedAgain ++ [.deliver 6 true, call admin (50 * oneNear) (.renewTla tla),
    .donate (2 ^ 127), call alice 0 .claimRefund, .deliver 8 true, .deliver 8 true,
    .donate (2 ^ 127 - 200 * oneNear)]

/-- The outcome of a withdrawal of one yocto that is accepted. -/
def withdrawn (c : Chain) (recipient : AccountId)
    (h : (c.callOutcome admin 0 0 (.withdraw 1 recipient)).isSome = true) : Outcome :=
  (c.callOutcome admin 0 0 (.withdraw 1 recipient)).get h

end Sample

/-- The withdrawal is accepted, and Bob cannot claim his refund after it. -/
theorem withdrawal_with_refund_unpayable :
    ∃ (c : Chain) (o : Outcome), c.Reached Sample.genesis ∧
      c.callOutcome Sample.admin 0 0 (.withdraw 1 Sample.admin) = some o ∧
      o.registry.Claimants [Sample.bob, Sample.admin] ∧
      Chain.claimEach 0 (c.accept 0 o) [Sample.bob, Sample.admin] = none := by
  refine ⟨Sample.after Sample.understated (by decide +kernel),
    Sample.withdrawn (Sample.after Sample.understated (by decide +kernel)) Sample.admin
      (by decide +kernel), Sample.reached _ _, (Option.some_get _).symm, ?_, ?_⟩
  · exact .of_keys (by decide) (by decide +kernel) (by decide +kernel)
  · rw [← Option.not_isSome_iff_eq_none]
    decide +kernel

theorem withdrawal_leaves_payable_rented :
    let s := Sample.historyAfter Sample.rented (by decide +kernel)
    (Chain.claimEach 0 (s.chain.accept 0 (Sample.withdrawn s.chain Sample.bob (by decide +kernel)))
      [Sample.bob, Sample.alice]).isSome = true := by
  refine (withdrawal_leaves_payable (Sample.history_reached Sample.rented (by decide +kernel))
    (Option.some_get _).symm ?_).2 (by decide +kernel)
  exact .of_keys (by decide) (by decide +kernel) (by decide +kernel)

end HosTla
