-- SUMMARY: The price and the excess of a sale are fixed when the buy is accepted, and its commission when it is settled.
import HosTla.Safety.Sellers
import HosTla.Safety.Rollbacks

/-!
# Terms

The price and the deposit travel with a sale. The commission rate does not: the callback
reads the one of that moment. Two continuations of a run after an accepted buy credit the
buyer the same excess, and each splits the price at the rate that is in force at its end.
-/

namespace HosTla

open Foundation

/-! ## The split of the price -/

/-- What a rate in basis points takes off a price. -/
def commissionAt (price bps : ℕ) : ℕ := price * bps / bpsDenominator

/-- A settlement that splits the price at a rate. The seller is credited what the commission
leaves, and the buyer what the deposit is over the price. -/
structure TlaRegistry.SplitsAt (r r' : TlaRegistry) (seller buyer : AccountId)
    (price deposit bps : ℕ) : Prop where
  ledger : r'.ledger = r.ledger.creditAll u128Max
    ((seller, price - commissionAt price bps) :: excessCredit buyer (deposit - price))
  totalRevenue : r'.totalRevenue = satAdd u128Max r.totalRevenue (commissionAt price bps)

/-- Neither the product nor the quotient of the source is cut off. -/
theorem TlaRegistry.resaleCommission_eq {r : TlaRegistry} {price : ℕ}
    (hrate : r.feeConfig.resaleCommissionBps ≤ bpsDenominator)
    (hprice : price * bpsDenominator < 2 ^ 128) :
    r.resaleCommission price = commissionAt price r.feeConfig.resaleCommissionBps := by
  have hmul : price * r.feeConfig.resaleCommissionBps ≤ price * bpsDenominator :=
    Nat.mul_le_mul_left price hrate
  have hfits : satMul u128Max price r.feeConfig.resaleCommissionBps =
      price * r.feeConfig.resaleCommissionBps :=
    Nat.min_eq_left (hmul.trans (Nat.le_sub_one_of_lt hprice))
  have hle : price * r.feeConfig.resaleCommissionBps / bpsDenominator ≤ price :=
    Nat.div_le_of_le_mul (hmul.trans_eq (Nat.mul_comm price bpsDenominator))
  rw [resaleCommission, hfits, Nat.min_eq_left hle, commissionAt]

/-! ## The rate -/

def Chain.rate (c : Chain) : ℕ := c.registry.feeConfig.resaleCommissionBps

/-- The step is no call of `update_fee_config`. -/
def Label.KeepsFees : Label → Prop
  | .call _ _ _ (.updateFeeConfig _) => False
  | _ => True

instance (l : Label) : Decidable l.KeepsFees := by
  delta Label.KeepsFees
  rcases l with ⟨_, _, _, op⟩ | _
  · rcases op with _ | _ <;> infer_instance
  all_goals infer_instance

/-- The two records have the same steps, but for calls of `update_fee_config`. -/
def DifferInFees {σ : Type} (tr₁ tr₂ : List (Transition σ Label)) : Prop :=
  (tr₁.map Transition.label).filter (fun l => decide l.KeepsFees) =
    (tr₂.map Transition.label).filter (fun l => decide l.KeepsFees)

theorem Settled.feeConfig {r : TlaRegistry} {fl : Flight} {o : Outcome} (h : Settled r fl o) :
    o.registry.feeConfig = r.feeConfig := by
  cases h <;> rfl

/-- The only call that writes the fees is the one of an admin, with a rate that is at most
the denominator. -/
theorem Accepted.feeConfig {env : Env} {r : TlaRegistry} {op : Op} {o : Outcome}
    (h : Accepted env r op o) :
    o.registry.feeConfig = r.feeConfig ∨
      ∃ config, op = .updateFeeConfig config ∧ o.registry.feeConfig = config ∧
        config.resaleCommissionBps ≤ bpsDenominator := by
  cases h with
  | updateFeeConfig _ _ hrate => exact .inr ⟨_, rfl, rfl, hrate⟩
  | _ => exact .inl rfl

namespace Chain

variable {g : Genesis} {c c' : Chain} {l : Label}

/-- What a step does to the rate. -/
theorem rate_of_step (hstep : c.step l = some c') :
    c'.rate = c.rate ∨ ¬ l.KeepsFees ∧ c'.rate ≤ bpsDenominator := by
  unfold rate
  rcases (move_of_step hstep).registry with
    heq | ⟨_, _, _, _, _, rfl, -, -, ho, heq⟩ | ⟨_, _, _, _, -, -, ho, heq⟩
  · exact .inl (by rw [heq])
  · rw [heq]
    rcases ho.feeConfig with hsame | ⟨config, rfl, hset, hrate⟩
    · exact .inl (congrArg FeeConfig.resaleCommissionBps hsame)
    · exact .inr ⟨id, (congrArg FeeConfig.resaleCommissionBps hset).trans_le hrate⟩
  · rw [heq]
    exact .inl (congrArg FeeConfig.resaleCommissionBps ho.feeConfig)

theorem Reached.rate_le (h : c.Reached g) : c.rate ≤ bpsDenominator := by
  refine h.invariant (I := fun c => c.rate ≤ bpsDenominator) ?_ ?_
  · exact Nat.zero_le _
  · intro c l c' hle hstep
    rcases rate_of_step hstep with heq | ⟨-, hle'⟩
    · rwa [heq]
    · exact hle'

end Chain

namespace System

variable {g : Genesis} {s s' : System} {tr : List (Transition System Label)}

theorem rate_of_run (hrun : Run System.step s tr s')
    (hkeeps : Meets (fun _ l => l.KeepsFees) tr) : s'.chain.rate = s.chain.rate := by
  refine hrun.guarded (I := fun t => t.chain.rate = s.chain.rate) rfl ?_ hkeeps
  intro t l t' _ hrate hkeeps hstep
  rcases Chain.rate_of_step (step_chain hstep) with heq | ⟨hnot, -⟩
  · exact heq.trans hrate
  · exact absurd hkeeps hnot

/-- The record of the call that opened a chain stays. -/
theorem opened_of_run (hrun : Run System.step s tr s') {id : ℕ} (hid : id < s.chain.nextId) :
    s'.history.opened id = s.history.opened id := by
  have key : id < s'.chain.nextId ∧ s'.history.opened id = s.history.opened id := by
    induction hrun with
    | nil => exact ⟨hid, rfl⟩
    | snoc _ hstep ih =>
      obtain ⟨hlt, hopened⟩ := ih
      have hle := (Chain.move_of_step (step_chain hstep)).nextId_le
      exact ⟨hlt.trans_le hle, (opened_of_step hstep hlt).trans hopened⟩
  exact key.2

/-! ## The settlement -/

/-- The callback of the sale with this id succeeds, and takes the account from `seller`. -/
def SettlesSale (s : System) (id : ℕ) (seller : AccountId) (s' : System) : Prop :=
  ∃ b sub ok, s.chain.flights.get id = some (.sold b true) ∧
    s.chain.registry.subAccounts.get b.key = some sub ∧ sub.owner = seller ∧
    s.step (.deliver id ok) = some s'

/-- The settlement pays out what the sale carries, and reads the rate. -/
theorem SettlesSale.splits (hs : s.Reached g) {id : ℕ} {seller : AccountId}
    (h : s.SettlesSale id seller s') :
    ∃ b : PendingBuy, (s.chain.flights.get id).bind Flight.selling = some b ∧
      (b.price * bpsDenominator < 2 ^ 128 →
        s.chain.registry.SplitsAt s'.chain.registry seller b.buyer b.price b.deposit
          s.chain.rate) := by
  obtain ⟨b, sub, ok, hfl, hsub, rfl, hstep⟩ := h
  refine ⟨b, by rw [hfl]; rfl, fun hprice => ?_⟩
  have hcommission := TlaRegistry.resaleCommission_eq hs.chain.rate_le hprice
  cases delivered_of_step hfl hstep with
  | settled ho hchain _ =>
    cases ho with
    | sold hsub' =>
      cases hsub.symm.trans hsub'
      rw [hchain]
      constructor
      · rw [Chain.rate, ← hcommission]
        rfl
      · rw [Chain.rate, ← hcommission]
        rfl
    | saleVoid hnone => cases hsub.symm.trans hnone
  | panicked he => exact absurd (Flight.selling_of_panic he) (by simp [Flight.selling])
  | advanced hnone => cases hnone

/-- After an accepted buy, a sale under its id is the one that was bought. -/
theorem saleTerms_of_run {s₀ : System} (hs₀ : s₀.Reached g) {buyer tlaId : AccountId}
    {deposit reserve : ℕ} {name : Str} {newOwnerKey : PublicKey} {o : Outcome}
    (hcall : s₀.chain.callOutcome buyer deposit reserve
      (.buySubAccount tlaId name newOwnerKey) = some o)
    (hstep : s₀.step (.call buyer deposit reserve (.buySubAccount tlaId name newOwnerKey)) = some s)
    (hrun : Run System.step s tr s') {b : PendingBuy}
    (hb : (s'.chain.flights.get s₀.chain.nextId).bind Flight.selling = some b) :
    SaleTerms ⟨s₀.chain, s₀.history.rentals, buyer, deposit, reserve,
      .buySubAccount tlaId name newOwnerKey⟩ b := by
  obtain ⟨fl, hfl, hselling⟩ := Option.bind_eq_some_iff.mp hb
  obtain ⟨rec, _, hopened, _, hterms⟩ := System.Reached.saleTerms ((hs₀.snoc hstep).run hrun)
    hfl hselling
  have haccepted := eq_of_accepted hstep hcall
  have hlt : s₀.chain.nextId < s.chain.nextId := by
    rw [haccepted]
    exact Nat.lt_succ_self _
  have hfirst : s.history.opened s₀.chain.nextId = some ⟨s₀.chain, s₀.history.rentals, buyer,
      deposit, reserve, .buySubAccount tlaId name newOwnerKey⟩ := by
    rw [haccepted]
    exact Function.update_self _ _ _
  rw [opened_of_run hrun hlt, hfirst] at hopened
  cases hopened
  exact hterms

/-- A run after an accepted buy that ends with its settlement: the price is the one quoted at
the call, and it is split at the rate of the settlement. -/
theorem SettlesSale.terms {s₀ s₁ : System} (hs₀ : s₀.Reached g) {buyer tlaId seller : AccountId}
    {deposit reserve : ℕ} {name : Str} {newOwnerKey : PublicKey} {o : Outcome}
    (hcall : s₀.chain.callOutcome buyer deposit reserve
      (.buySubAccount tlaId name newOwnerKey) = some o)
    (hstep : s₀.step (.call buyer deposit reserve (.buySubAccount tlaId name newOwnerKey)) = some s)
    (hrun : Run System.step s tr s₁) (hsold : s₁.SettlesSale s₀.chain.nextId seller s') :
    ∃ price, s₀.chain.registry.quotedPrice (subAccountKey tlaId name) buyer = some price ∧
      price ≤ deposit ∧
      (price * bpsDenominator < 2 ^ 128 →
        s₁.chain.registry.SplitsAt s'.chain.registry seller buyer price deposit s₁.chain.rate) := by
  obtain ⟨b, hb, hsplits⟩ := hsold.splits ((hs₀.snoc hstep).run hrun)
  have hterms := saleTerms_of_run hs₀ hcall hstep hrun hb
  have hop := hterms.op
  cases b
  cases hop
  cases hterms.buyer
  cases hterms.deposit
  exact ⟨_, hterms.price, hterms.paid, hsplits⟩

end System

/-- Two continuations of a run after an accepted buy, each of which settles the sale. Both
take the price that was quoted at the call and credit the buyer the same excess. Each splits
the price at the rate in force at its settlement, which is the rate at the call unless
`update_fee_config` was called in between. -/
theorem sale_settled_at_current_rate {g : Genesis} {s₀ s : System} (hs₀ : s₀.Reached g)
    {buyer tlaId : AccountId} {deposit reserve : ℕ} {name : Str} {newOwnerKey : PublicKey}
    (haccepted : (s₀.chain.callOutcome buyer deposit reserve
      (.buySubAccount tlaId name newOwnerKey)).isSome = true)
    (hstep : s₀.step (.call buyer deposit reserve (.buySubAccount tlaId name newOwnerKey)) = some s)
    {s₁ s₁' s₂ s₂' : System} {tr₁ tr₂ : List (Transition System Label)}
    {seller₁ seller₂ : AccountId}
    (hrun₁ : Run System.step s tr₁ s₁) (hsold₁ : s₁.SettlesSale s₀.chain.nextId seller₁ s₁')
    (hrun₂ : Run System.step s tr₂ s₂) (hsold₂ : s₂.SettlesSale s₀.chain.nextId seller₂ s₂') :
    ∃ price, s₀.chain.registry.quotedPrice (subAccountKey tlaId name) buyer = some price ∧
      price ≤ deposit ∧
      (price * bpsDenominator < 2 ^ 128 →
        s₁.chain.registry.SplitsAt s₁'.chain.registry seller₁ buyer price deposit s₁.chain.rate ∧
        s₂.chain.registry.SplitsAt s₂'.chain.registry seller₂ buyer price deposit s₂.chain.rate) ∧
      (Meets (fun _ l => l.KeepsFees) tr₁ → s₁.chain.rate = s₀.chain.rate) ∧
      (Meets (fun _ l => l.KeepsFees) tr₂ → s₂.chain.rate = s₀.chain.rate) := by
  obtain ⟨o, hcall⟩ := Option.isSome_iff_exists.mp haccepted
  obtain ⟨price, hquoted, hpaid, hsplits₁⟩ := hsold₁.terms hs₀ hcall hstep hrun₁
  obtain ⟨price', hquoted', -, hsplits₂⟩ := hsold₂.terms hs₀ hcall hstep hrun₂
  cases hquoted.symm.trans hquoted'
  have hrate : s.chain.rate = s₀.chain.rate := by
    rcases Chain.rate_of_step (System.step_chain hstep) with heq | ⟨hnot, -⟩
    · exact heq
    · exact absurd trivial hnot
  exact ⟨price, hquoted, hpaid, fun hprice => ⟨hsplits₁ hprice, hsplits₂ hprice⟩,
    fun hkeeps => (System.rate_of_run hrun₁ hkeeps).trans hrate,
    fun hkeeps => (System.rate_of_run hrun₂ hkeeps).trans hrate⟩

/-! ## A rate that changes in between -/

theorem System.SettlesSale.of_step {s : System} {id : ℕ} {b : PendingBuy} {seller : AccountId}
    (hfl : s.chain.flights.get id = some (.sold b true))
    (howner : (s.chain.registry.subAccounts.get b.key).map SubAccountEntry.owner = some seller)
    (hstep : (s.step (.deliver id true)).isSome = true) :
    s.SettlesSale id seller ((s.step (.deliver id true)).get hstep) := by
  obtain ⟨sub, hsub, hseller⟩ := Option.map_eq_some_iff.mp howner
  exact ⟨b, sub, true, hfl, hsub, hseller, (Option.some_get hstep).symm⟩

namespace Sample

def buying : Op := .buySubAccount tla name otherKey

/-- Bob has bought the account of Alice at 5, and no receipt has run. -/
def paid : System := (System.step (historyAfter onSale (by decide +kernel)) (call bob 5 buying)).get
  (by decide +kernel)

/-- A continuation of the run after the buy. -/
def paidAfter (ls : List Label) (h : (exec System.step paid ls).isSome = true) : System :=
  (exec System.step paid ls).get h

theorem exists_paid_run (ls : List Label) (h : (exec System.step paid ls).isSome = true) :
    ∃ tr, Run System.step paid tr (paidAfter ls h) ∧ tr.map Transition.label = ls :=
  Run.of_exec (Option.some_get h).symm

def swap : List Label := [.deliver 4 true]

/-- The admin takes the whole price as the commission, after the locker has answered. -/
def swapDearer : List Label :=
  swap ++ [call admin 0 (.updateFeeConfig { defaultFeeConfig with resaleCommissionBps := 10000 })]

theorem settles_swap : (paidAfter swap (by decide +kernel)).SettlesSale 4 alice
    (paidAfter (swap ++ [.deliver 4 true]) (by decide +kernel)) :=
  .of_step (b := purchase) rfl (by decide +kernel) (by decide +kernel)

theorem settles_swapDearer : (paidAfter swapDearer (by decide +kernel)).SettlesSale 4 alice
    (paidAfter (swapDearer ++ [.deliver 4 true]) (by decide +kernel)) :=
  .of_step (b := purchase) rfl (by decide +kernel) (by decide +kernel)

end Sample

/-- Alice is credited the price in the one continuation. In the other, which differs in a
call of `update_fee_config` only, she is credited nothing and the revenue takes the price. -/
theorem commission_set_after_buy :
    ∃ (s₀ s s₁ s₁' s₂ s₂' : System) (tr₁ tr₂ : List (Transition System Label)),
      s₀.Reached Sample.genesis ∧
      (s₀.chain.callOutcome Sample.bob 5 0 Sample.buying).isSome = true ∧
      s₀.step (.call Sample.bob 5 0 Sample.buying) = some s ∧
      Run System.step s tr₁ s₁ ∧ Run System.step s tr₂ s₂ ∧ DifferInFees tr₁ tr₂ ∧
      s₁.SettlesSale s₀.chain.nextId Sample.alice s₁' ∧
      s₂.SettlesSale s₀.chain.nextId Sample.alice s₂' ∧
      s₁'.chain.registry.ledger.balanceOf Sample.alice =
        s₁.chain.registry.ledger.balanceOf Sample.alice + 5 ∧
      s₁'.chain.registry.totalRevenue = s₁.chain.registry.totalRevenue ∧
      s₂'.chain.registry.ledger.balanceOf Sample.alice =
        s₂.chain.registry.ledger.balanceOf Sample.alice ∧
      s₂'.chain.registry.totalRevenue = s₂.chain.registry.totalRevenue + 5 := by
  obtain ⟨tr₁, hrun₁, hlabels₁⟩ := Sample.exists_paid_run Sample.swap (by decide +kernel)
  obtain ⟨tr₂, hrun₂, hlabels₂⟩ := Sample.exists_paid_run Sample.swapDearer (by decide +kernel)
  refine ⟨_, _, _, _, _, _, tr₁, tr₂, Sample.history_reached Sample.onSale (by decide +kernel),
    by decide +kernel, (Option.some_get _).symm, hrun₁, hrun₂, ?_, Sample.settles_swap,
    Sample.settles_swapDearer, by decide +kernel, by decide +kernel, by decide +kernel,
    by decide +kernel⟩
  rw [DifferInFees, hlabels₁, hlabels₂]
  rfl

/-- The whole of the price goes to Alice at the rate of the call, and none of it at the rate
that the admin has set. -/
theorem sale_settled_at_current_rate_dearer :
    ∃ s₁ s₁' s₂ s₂' : System, s₁.chain.rate = 0 ∧ s₂.chain.rate = 10000 ∧
      s₁.chain.registry.SplitsAt s₁'.chain.registry Sample.alice Sample.bob 5 5 s₁.chain.rate ∧
      s₂.chain.registry.SplitsAt s₂'.chain.registry Sample.alice Sample.bob 5 5 s₂.chain.rate := by
  obtain ⟨tr₁, hrun₁, -⟩ := Sample.exists_paid_run Sample.swap (by decide +kernel)
  obtain ⟨tr₂, hrun₂, -⟩ := Sample.exists_paid_run Sample.swapDearer (by decide +kernel)
  obtain ⟨price, hprice, -, hsplits, -, -⟩ := sale_settled_at_current_rate
    (Sample.history_reached Sample.onSale (by decide +kernel)) (by decide +kernel)
    (Option.some_get _).symm hrun₁ Sample.settles_swap hrun₂ Sample.settles_swapDearer
  have hquoted : (Sample.historyAfter Sample.onSale (by decide +kernel)).chain.registry.quotedPrice
      (subAccountKey Sample.tla Sample.name) Sample.bob = some 5 := by decide +kernel
  cases hprice.symm.trans hquoted
  exact ⟨_, _, _, _, by decide +kernel, by decide +kernel, hsplits (by decide)⟩

end HosTla
