-- SUMMARY: The books of the refund ledger balance for every account, in every order of credits, claims and transfers.
import HosTla.Chain.InFlight

/-!
# Refunds

A credit stays with its account until it is claimed, a claim stays in flight until
its transfer has an answer, and a failed transfer restores the entry. The books of the
ledger say so account by account.
-/

namespace HosTla

open Foundation

/-! ## Claims in flight -/

/-- The refund that is on its way, or is going to be restored. -/
def Flight.claimed : Flight → Option (AccountId × ℕ)
  | .refundTransfer caller amount => some (caller, amount)
  | .refundSettled caller amount false => some (caller, amount)
  | _ => none

def Flight.claimTo (a : AccountId) (fl : Flight) : ℕ :=
  fl.claimed.elim 0 fun c => if a = c.1 then c.2 else 0

def Flight.claimTotal (fl : Flight) : ℕ := fl.claimed.elim 0 Prod.snd

/-- The claims in flight of one account. -/
def Chain.claimsOf (c : Chain) (a : AccountId) : ℕ := c.sumFlights (Flight.claimTo a)

def Chain.claims (c : Chain) : PullLedger.Tally AccountId :=
  ⟨c.claimsOf, c.sumFlights Flight.claimTotal⟩

namespace Chain

variable {c c' : Chain} {id : ℕ} {fl : Flight}

/-- Claims change by the claim of one flight. -/
theorem claims_eq_add {a : AccountId} {x : ℕ}
    (hof : ∀ b, c'.claimsOf b = c.claimsOf b + if b = a then x else 0)
    (htotal : c'.sumFlights Flight.claimTotal = c.sumFlights Flight.claimTotal + x) :
    c'.claims = c.claims.add a x :=
  PullLedger.Tally.ext (funext hof) htotal

theorem claims_congr (h : ∀ w : Flight → ℕ, (∀ fl, fl.claimed = none → w fl = 0) →
    c'.sumFlights w = c.sumFlights w) : c'.claims = c.claims := by
  refine PullLedger.Tally.ext (funext fun a => ?_) ?_
  · exact h _ fun fl hfl => by simp [Flight.claimTo, hfl]
  · exact h _ fun fl hfl => by simp [Flight.claimTotal, hfl]

theorem claims_accept (hfresh : c.FreshIds) {deposit : ℕ} {o : Outcome}
    (ho : ∀ p, o.promise = some p → p.flight.claimed = none) :
    (c.accept deposit o).claims = c.claims := by
  refine claims_congr fun w hw => ?_
  rw [sumFlights_accept w hfresh]
  cases hp : o.promise with
  | none => rfl
  | some p => simp [hw _ (ho p hp)]

theorem claims_accept_claim (hfresh : c.FreshIds) {deposit x : ℕ} {a : AccountId} {o : Outcome}
    (ho : o.promise = some (.transferRefund a x)) :
    (c.accept deposit o).claims = c.claims.add a x := by
  refine claims_eq_add (fun b => ?_) ?_
  · unfold claimsOf
    rw [sumFlights_accept _ hfresh, ho]
    rfl
  · rw [sumFlights_accept _ hfresh, ho]
    rfl

theorem claims_settle (hfl : c.flights.get id = some fl) (hclaimed : fl.claimed = none)
    {o : Outcome} (ho : ∀ p, o.promise = some p → p.flight.claimed = none) :
    (c.settle id o).claims = c.claims := by
  refine claims_congr fun w hw => ?_
  have hsum := sumFlights_settle w hfl o
  rw [hw fl hclaimed] at hsum
  cases hp : o.promise with
  | none => rw [hp, Option.elim_none] at hsum; omega
  | some p => rw [hp, Option.elim_some, hw _ (ho p hp)] at hsum; omega

/-- A claim that is settled leaves the claims. -/
theorem claims_settle_claim {a : AccountId} {x : ℕ} (hfl : c.flights.get id = some fl)
    (hclaimed : fl.claimed = some (a, x)) {o : Outcome} (ho : o.promise = none) :
    c.claims = (c.settle id o).claims.add a x := by
  refine claims_eq_add (fun b => ?_) ?_
  · have hsum := sumFlights_settle (Flight.claimTo b) hfl o
    have hw : fl.claimTo b = if b = a then x else 0 := by simp [Flight.claimTo, hclaimed]
    rw [ho, hw, Option.elim_none] at hsum
    exact hsum.symm
  · have hsum := sumFlights_settle Flight.claimTotal hfl o
    have hw : fl.claimTotal = x := by simp [Flight.claimTotal, hclaimed]
    rw [ho, hw, Option.elim_none] at hsum
    exact hsum.symm

theorem claims_setFlight (hfl : c.flights.get id = some fl) {fl' : Flight}
    (heq : fl'.claimed = fl.claimed) : (c.setFlight id fl').claims = c.claims := by
  have hw : ∀ w : Flight → ℕ, w fl' = w fl → (c.setFlight id fl').sumFlights w = c.sumFlights w := by
    intro w hw
    have hsum := sumFlights_setFlight w hfl fl'
    omega
  refine PullLedger.Tally.ext (funext fun a => ?_) ?_
  · exact hw _ (by simp [Flight.claimTo, heq])
  · exact hw _ (by simp [Flight.claimTotal, heq])

/-- The transfer of a refund succeeds: the claim is no longer in flight. -/
theorem claims_refundPaid {a : AccountId} {x : ℕ}
    (hfl : c.flights.get id = some (.refundTransfer a x)) :
    c.claims = (c.setFlight id (.refundSettled a x true)).claims.add a x := by
  have hset : ∀ w : Flight → ℕ, w (.refundSettled a x true) = 0 →
      c.sumFlights w =
        (c.setFlight id (.refundSettled a x true)).sumFlights w + w (.refundTransfer a x) := by
    intro w hzero
    have hsum := sumFlights_setFlight w hfl (.refundSettled a x true)
    omega
  exact claims_eq_add (fun b => hset _ rfl) (hset _ rfl)

theorem claims_refundFailed (hfresh : c.FreshIds) {a receiver : AccountId} {x y : ℕ}
    (hfl : c.flights.get id = some (.refundTransfer a x)) :
    ((c.setFlight id (.refundSettled a x false)).send (.refund receiver y)).claims = c.claims := by
  have hw : ∀ w : Flight → ℕ, w (.refundSettled a x false) = w (.refundTransfer a x) →
      w (.refund receiver y) = 0 →
      ((c.setFlight id (.refundSettled a x false)).send (.refund receiver y)).sumFlights w =
        c.sumFlights w := by
    intro w hw hzero
    have hsum := sumFlights_send w hfresh hfl (.refundSettled a x false) (.refund receiver y)
    omega
  refine PullLedger.Tally.ext (funext fun b => ?_) ?_
  · exact hw _ rfl rfl
  · exact hw _ rfl rfl

theorem claims_advanced (hfresh : c.FreshIds) (hfl : c.flights.get id = some fl)
    (hadv : c.Advanced id fl c') (hne : ∀ a x, fl ≠ .refundTransfer a x)
    (hcallback : fl.callback c.registry = none) : c'.claims = c.claims := by
  refine claims_congr fun w hw => hadv.sumFlights_eq w hfresh hfl (hw _ ?_) ?_ ?_
  · cases fl with
    | refundTransfer a x => exact absurd rfl (hne a x)
    | refundSettled => cases hcallback
    | _ => rfl
  · intro fl' back hnext
    apply hw
    cases hnext with
    | refundSent | refundFailed => exact absurd rfl (hne _ _)
    | sweep _ h => cases fl' <;> first | rfl | cases h
    | _ => rfl
  · intro receiver amount
    exact hw _ rfl

theorem claims_answered (hfl : c.flights.get id = some fl) (h : c.Answered id fl c') :
    c'.claims = c.claims := by
  cases h with
  | reclaim => exact claims_setFlight hfl rfl
  | buy => exact claims_setFlight hfl rfl
  | @sweep fl fl' h h' =>
    refine claims_setFlight hfl ?_
    have hnone : ∀ f : Flight, f.isSweep = true → f.claimed = none := by
      intro f hf
      cases f <;> first | rfl | cases hf
    rw [hnone _ h, hnone _ h']

end Chain

/-! ## The ledger after calls and callbacks -/

/-- A call claims the refund of its caller, or it adds its credits to the ledger. -/
theorem Accepted.ledger {env : Env} {r : TlaRegistry} {op : Op} {o : Outcome}
    (h : Accepted env r op o) :
    (o.credits = [] ∧ o.registry.ledger = r.ledger.claim env.predecessor ∧
        o.promise = some (.transferRefund env.predecessor
          (r.ledger.balanceOf env.predecessor))) ∨
      (o.registry.ledger = r.ledger.creditAll u128Max o.credits ∧
        ∀ p, o.promise = some p → p.flight.claimed = none) := by
  cases h with
  | claimRefund => exact .inl ⟨rfl, rfl, rfl⟩
  | @resale op p _ hp =>
    refine .inr ⟨rfl, ?_⟩
    rintro q ⟨⟩
    cases p <;> first | rfl | cases hp
  | reclaimFinalize =>
    refine .inr ⟨rfl, ?_⟩
    rintro p ⟨⟩
    split <;> rfl
  | buySubAccount =>
    refine .inr ⟨rfl, ?_⟩
    rintro p ⟨⟩
    split <;> rfl
  | rentSubAccount | reclaimSweepFt | exportSubAccount =>
    refine .inr ⟨rfl, ?_⟩
    rintro p ⟨⟩
    rfl
  | _ =>
    refine .inr ⟨rfl, ?_⟩
    rintro p ⟨⟩

/-- A callback restores a refund, or it adds its credits to the ledger. -/
theorem Settled.ledger {r : TlaRegistry} {fl : Flight} {o : Outcome} (h : Settled r fl o) :
    (∃ caller amount, fl.claimed = some (caller, amount) ∧ o.credits = [] ∧ o.promise = none ∧
        o.registry.ledger = r.ledger.credit u128Max caller amount) ∨
      (fl.claimed = none ∧ o.registry.ledger = r.ledger.creditAll u128Max o.credits ∧
        ∀ p, o.promise = some p → p.flight.claimed = none) := by
  cases h with
  | refundRestored => exact .inl ⟨_, _, rfl, rfl, rfl, rfl⟩
  | reclaimCleared | saleCleared =>
    refine .inr ⟨rfl, rfl, ?_⟩
    rintro p ⟨⟩
    rfl
  | _ =>
    refine .inr ⟨rfl, rfl, ?_⟩
    rintro p ⟨⟩

/-! ## The books -/

namespace System

def credited (s : System) : PullLedger.Tally AccountId :=
  PullLedger.Tally.zero.addAll s.history.credits

def paid (s : System) : PullLedger.Tally AccountId :=
  PullLedger.Tally.zero.addAll s.history.paid

def Balanced (s : System) : Prop :=
  s.chain.registry.ledger.Balanced s.credited s.chain.claims s.paid

variable {s s' : System} {l : Label}

theorem credited_append {cs : List (AccountId × ℕ)}
    (h : s'.history.credits = s.history.credits ++ cs) :
    s'.credited = s.credited.addAll cs := by
  unfold credited
  rw [h, PullLedger.Tally.addAll_append]

/-- The credits a step adds to the record. -/
theorem credits_of_step (h : s.step l = some s') :
    ∃ cs, s'.history.credits = s.history.credits ++ cs := by
  cases moved_of_step h with
  | accepted => exact ⟨_, rfl⟩
  | settled => exact ⟨_, rfl⟩
  | panicked | advanced =>
    refine ⟨[], ?_⟩
    rw [List.append_nil, History.recordReceipt_eq]
  | _ => exact ⟨[], (List.append_nil _).symm⟩

theorem credited_total_mono (h : s.step l = some s') : s.credited.total ≤ s'.credited.total := by
  obtain ⟨cs, hcs⟩ := credits_of_step h
  rw [credited_append hcs]
  exact PullLedger.Tally.le_addAll_total _ _

theorem Balanced.accepted (hfresh : s.chain.FreshIds) (h : s.Balanced)
    {predecessor : AccountId} {deposit reserve : ℕ} {op : Op} {o : Outcome}
    (hchain : s'.chain = s.chain.accept deposit o)
    (ho : Accepted (s.chain.callEnv predecessor deposit reserve) s.chain.registry op o)
    (hcredits : s'.history.credits = s.history.credits ++ o.credits)
    (hpaid : s'.history.paid = s.history.paid) (hmax : s'.credited.total ≤ u128Max) :
    s'.Balanced := by
  have hledger : s'.chain.registry.ledger = o.registry.ledger := by rw [hchain]; rfl
  have hpaid' : s'.paid = s.paid := by unfold System.paid; rw [hpaid]
  unfold Balanced
  rw [hledger, hpaid']
  -- A claim moves an entry into flight. Any other call only credits.
  rcases ho.ledger with ⟨hnil, hclaim, hpromise⟩ | ⟨hcredit, hpromise⟩
  · rw [hnil, List.append_nil] at hcredits
    have hsame : s'.credited = s.credited := by unfold credited; rw [hcredits]
    rw [hclaim, hsame, hchain, Chain.claims_accept_claim hfresh hpromise]
    exact PullLedger.Balanced.claim h predecessor
  · rw [hcredit, hchain, Chain.claims_accept hfresh hpromise]
    rw [credited_append hcredits] at hmax ⊢
    exact PullLedger.Balanced.creditAll h hmax

theorem Balanced.settled (h : s.Balanced) {id : ℕ} {fl : Flight} {o : Outcome}
    (hfl : s.chain.flights.get id = some fl)
    (hchain : s'.chain = s.chain.settle id o) (ho : Settled s.chain.registry fl o)
    (hcredits : s'.history.credits = s.history.credits ++ o.credits)
    (hpaid : s'.history.paid = s.history.paid) (hmax : s'.credited.total ≤ u128Max) :
    s'.Balanced := by
  have hledger : s'.chain.registry.ledger = o.registry.ledger := by rw [hchain]; rfl
  have hpaid' : s'.paid = s.paid := by unfold System.paid; rw [hpaid]
  unfold Balanced
  rw [hledger, hpaid']
  -- A failed claim goes back to its entry and is no new credit.
  rcases ho.ledger with ⟨caller, amount, hclaimed, hnil, hpromise, hrestore⟩ |
      ⟨hclaimed, hcredit, hpromise⟩
  · rw [hnil, List.append_nil] at hcredits
    have hsame : s'.credited = s.credited := by unfold credited; rw [hcredits]
    rw [hsame] at hmax
    rw [hrestore, hsame, hchain]
    unfold Balanced at h
    rw [Chain.claims_settle_claim hfl hclaimed hpromise] at h
    exact h.restore hmax
  · rw [hcredit, hchain, Chain.claims_settle hfl hclaimed hpromise]
    rw [credited_append hcredits] at hmax ⊢
    exact PullLedger.Balanced.creditAll h hmax

/-- A step that leaves ledger, claims and records alone. -/
theorem Balanced.congr (h : s.Balanced) (hreg : s'.chain.registry = s.chain.registry)
    (hclaims : s'.chain.claims = s.chain.claims)
    (hcredits : s'.history.credits = s.history.credits)
    (hpaid : s'.history.paid = s.history.paid) : s'.Balanced := by
  unfold Balanced credited System.paid at h ⊢
  rw [hreg, hclaims, hcredits, hpaid]
  exact h

theorem Balanced.advanced (hfresh : s.chain.FreshIds) (h : s.Balanced) {id : ℕ} {ok : Bool}
    {fl : Flight} (hfl : s.chain.flights.get id = some fl)
    (hcallback : fl.callback s.chain.registry = none)
    (hadvance : s.chain.advance id ok fl = some s'.chain)
    (hhist : s'.history = s.history.recordReceipt s.chain id ok fl) : s'.Balanced := by
  by_cases hrefund : ∃ a x, fl = .refundTransfer a x
  · obtain ⟨a, x, rfl⟩ := hrefund
    have hchain := Option.some.inj hadvance
    simp only [Chain.advanceRefundTransfer] at hchain
    simp only [History.recordReceipt] at hhist
    cases ok with
    | true =>
      rw [if_pos rfl] at hchain hhist
      have hcredited : s'.credited = s.credited := by unfold credited; rw [hhist]
      have hpaid : s'.paid = s.paid.add a x := by
        unfold System.paid
        rw [hhist, PullLedger.Tally.addAll_append]
        rfl
      unfold Balanced at h ⊢
      rw [Chain.claims_refundPaid hfl] at h
      rw [← hchain, hcredited, hpaid]
      exact h.pay
    | false =>
      rw [if_neg Bool.false_ne_true] at hchain hhist
      refine h.congr ?_ ?_ (by rw [hhist]) (by rw [hhist])
      · rw [← hchain]; rfl
      · rw [← hchain]; exact Chain.claims_refundFailed hfresh hfl
  · have hadv := Chain.advanced_of_advance hadvance
    have hne : ∀ a x, fl ≠ .refundTransfer a x := fun a x heq => hrefund ⟨a, x, heq⟩
    refine h.congr hadv.registry (Chain.claims_advanced hfresh hfl hadv hne hcallback) ?_ ?_
    · rw [hhist, History.recordReceipt_eq]
    · rw [hhist]
      cases fl with
      | refundTransfer a x => exact absurd rfl (hne a x)
      | _ => first | rfl | (simp only [History.recordReceipt]; split <;> rfl)

theorem Balanced.step (hfresh : s.chain.FreshIds) (h : s.Balanced) (hstep : s.step l = some s')
    (hmax : s'.credited.total ≤ u128Max) : s'.Balanced := by
  cases moved_of_step hstep with
  | accepted _ ho => exact h.accepted hfresh rfl ho rfl rfl hmax
  | settled hfl _ ho => exact h.settled hfl rfl ho rfl rfl hmax
  | @panicked _ _ fl _ hfl _ he =>
    -- The callback of a claim does not panic.
    have hclaimed : fl.claimed = none := by
      cases fl with
      | refundSettled caller amount ok => cases ok <;> cases he
      | refundTransfer => cases he
      | _ => rfl
    refine h.congr rfl (Chain.claims_setFlight hfl hclaimed.symm) ?_ ?_
    · rw [History.recordReceipt_eq]
    · cases fl <;> first | rfl | cases he
  | advanced hfl hcallback hnone hadvance => exact h.advanced hfresh hfl hnone hadvance rfl
  | answered hfl hanswer =>
    exact h.congr hanswer.registry (Chain.claims_answered hfl hanswer) rfl rfl
  | _ => exact h.congr rfl rfl rfl rfl

/-- The books balance in every reachable state in which all credits together fit. -/
theorem Reached.balanced {g : Genesis} (h : s.Reached g) (hmax : s.credited.total ≤ u128Max) :
    s.Balanced := by
  -- The bound on all credits passes down to every earlier state of the run.
  obtain ⟨tr, hrun⟩ := h
  induction hrun with
  | nil =>
    refine ⟨rfl, fun a => ?_, ?_⟩
    · rfl
    · rfl
  | snoc hrun hstep ih =>
    have hfresh := (System.Reached.chain ⟨_, hrun⟩).freshIds
    exact (ih (le_trans (credited_total_mono hstep) hmax)).step hfresh hstep hmax

end System

/-- As long as all credits together are below 2^128, the stored total is the sum of
the entries, and each account was credited what is pending for it, what it has
claimed and what was paid to it. -/
theorem refunds_exact {g : Genesis} {s : System} (h : s.Reached g)
    (hbound : (s.history.credits.map Prod.snd).sum < 2 ^ 128) :
    s.chain.registry.totalPendingRefunds =
        (s.chain.registry.pendingRefunds.sum fun _ amount => amount) ∧
      ∀ a, PullLedger.amountTo s.history.credits a =
        s.chain.registry.getPendingRefund a + s.chain.claimsOf a +
          PullLedger.amountTo s.history.paid a := by
  have htotal : s.credited.total = (s.history.credits.map Prod.snd).sum := by
    rw [System.credited, PullLedger.Tally.addAll_total]
    exact Nat.zero_add _
  have hbooks := h.balanced (by rw [htotal]; unfold u128Max; omega)
  refine ⟨hbooks.summed, fun a => ?_⟩
  have hcredited : s.credited.of a = PullLedger.amountTo s.history.credits a := by
    rw [System.credited, PullLedger.Tally.addAll_of]
    exact Nat.zero_add _
  have hpaid : s.paid.of a = PullLedger.amountTo s.history.paid a := by
    rw [System.paid, PullLedger.Tally.addAll_of]
    exact Nat.zero_add _
  rw [← hcredited, ← hpaid]
  exact hbooks.each a

namespace Sample

/-- Alice claims her excess, the transfer fails, and a second claim is in flight. -/
def claimed : List Label :=
  rented ++ [call alice 0 .claimRefund, .deliver 3 false, .deliver 3 true, .deliver 4 true,
    call alice 0 .claimRefund]

end Sample

theorem refunds_exact_claimed :
    let s := Sample.historyAfter Sample.claimed (by decide +kernel)
    s.chain.registry.totalPendingRefunds =
        (s.chain.registry.pendingRefunds.sum fun _ amount => amount) ∧
      ∀ a, PullLedger.amountTo s.history.credits a =
        s.chain.registry.getPendingRefund a + s.chain.claimsOf a +
          PullLedger.amountTo s.history.paid a :=
  refunds_exact (Sample.history_reached Sample.claimed _) (by decide +kernel)

end HosTla
