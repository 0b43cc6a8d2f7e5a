-- SUMMARY: When the creation callback charges a rental exactly what was taken for it.
import HosTla.Chain.InFlight

/-!
# Charges

`rent_sub_account` forwards the creation deposit of its time. The callback computes
the excess from the creation deposit of its own time. The two agree exactly when the
fee config in between leaves the excess as it was.
-/

namespace HosTla

open Foundation

/-! ## The terms of a rental -/

/-- The terms a rental in flight has from the call that opened it. -/
structure RentTerms (rec : CallRecord) (p : PendingRent) : Prop where
  op : ∃ mainWallet, rec.op = .rentSubAccount p.tlaId p.name p.ownerKey mainWallet
  payer : p.payer = rec.predecessor
  attached : p.attached = rec.deposit
  forwarded : p.creationDeposit = rec.before.registry.feeConfig.accountCreationDeposit
  rent : ∃ tla, rec.before.registry.tlas.get p.tlaId = some tla ∧
    p.rent = calculateRent tla p.tlaId p.name rec.before.registry.feeConfig
  covered : p.rent + p.creationDeposit ≤ p.attached
  bound : p.attached < u128Max

/-- A rental in flight has the terms of an accepted `rent_sub_account`. -/
theorem System.Reached.rentTerms {g : Genesis} {s : System} (h : s.Reached g) {id : ℕ}
    {fl : Flight} {p : PendingRent} (hfl : s.chain.flights.get id = some fl)
    (hrenting : fl.renting = some p) :
    ∃ rec o, s.history.opened id = some rec ∧ rec.outcome = some o ∧ RentTerms rec p := by
  obtain ⟨rec, o, promise, hopened, houtcome, hbound, hpromise, hp⟩ :=
    h.opened Flight.renting_carried hfl hrenting
  obtain ⟨-, haccepted⟩ := Chain.accepted_of_callOutcome houtcome
  obtain ⟨mainWallet, tla, hop, htla, hrent, hforwarded, hpayer, hattached, hpaid⟩ :=
    haccepted.rent_of_renting hpromise hp
  have hattached' : p.attached = rec.deposit := hattached
  have hlt : p.attached < u128Max := by omega
  exact ⟨rec, o, hopened, houtcome,
    { op := ⟨mainWallet, hop⟩
      payer := hpayer
      attached := hattached
      forwarded := hforwarded
      rent := ⟨tla, htla, hrent⟩
      covered := add_le_of_satAdd_le hpaid hlt
      bound := hlt }⟩

/-! ## The charge of the callback -/

/-- The callback of a creation returned, took the rent and credited the rest. -/
def ChargedExactly (s s' : System) (id : ℕ) (p : PendingRent) : Prop :=
  s'.chain.flights.get id = none ∧
    s'.chain.registry.totalRevenue = s.chain.registry.totalRevenue + p.rent ∧
    ∃ credits, s'.history.credits = s.history.credits ++ credits ∧
      p.rent + p.creationDeposit + PullLedger.amountTo credits p.payer = p.attached ∧
      ∀ a, a ≠ p.payer → PullLedger.amountTo credits a = 0

/-- The state of the registry in which the callback charges what was taken: the
entry is there, the revenue fits, and the config leaves the excess as it was. -/
def ChargesExactly (r : TlaRegistry) (p : PendingRent) : Prop :=
  (∃ sub, r.subAccounts.get p.key = some sub) ∧ r.totalRevenue + p.rent ≤ u128Max ∧
    (r.feeConfig.accountCreationDeposit = p.creationDeposit ∨
      p.attached = p.rent + p.creationDeposit ∧
        p.creationDeposit ≤ r.feeConfig.accountCreationDeposit)

theorem amountTo_excessCredit (account a : AccountId) (excess : ℕ) :
    PullLedger.amountTo (excessCredit account excess) a = if a = account then excess else 0 := by
  unfold excessCredit
  split
  · simp [PullLedger.amountTo]
  · rename_i hzero
    have : excess = 0 := by omega
    simp [PullLedger.amountTo, this]

/-- The excess of the callback against the excess of the call. -/
theorem excess_eq_iff {rent d d' attached : ℕ} (hcovered : rent + d ≤ attached)
    (hbound : attached < u128Max) :
    rent + d + (attached - satAdd u128Max rent d') = attached ↔
      d' = d ∨ attached = rent + d ∧ d ≤ d' := by
  unfold satAdd
  omega

/-- A successful creation callback charges exactly what was taken if and only if the
entry is still there, the revenue fits and the config leaves the excess as it was. -/
theorem charged_exactly_iff {g : Genesis} {s s' : System} (h : s.Reached g) {id : ℕ} {ok : Bool}
    {p : PendingRent} (hfl : s.chain.flights.get id = some (.created p true))
    (hstep : s.step (.deliver id ok) = some s') :
    (∃ rec o, s.history.opened id = some rec ∧ rec.outcome = some o ∧ RentTerms rec p) ∧
      (ChargedExactly s s' id p ↔ ChargesExactly s.chain.registry p) := by
  have hterms := h.rentTerms hfl rfl
  refine ⟨hterms, ?_⟩
  obtain ⟨rec, -, -, -, terms⟩ := hterms
  cases System.delivered_of_step hfl hstep with
  | settled ho hchain hhist =>
    cases ho with
    | created hsub =>
      constructor
      · rintro ⟨-, hrevenue, credits, hcredits, hcharge, -⟩
        rw [hchain] at hrevenue
        rw [hhist] at hcredits
        rw [← List.append_cancel_left hcredits, amountTo_excessCredit, if_pos rfl] at hcharge
        exact ⟨⟨_, hsub⟩, satAdd_eq_iff.mp hrevenue,
          (excess_eq_iff terms.covered terms.bound).mp hcharge⟩
      · rintro ⟨-, hrevenue, hconfig⟩
        refine ⟨?_, ?_, _, congrArg History.credits hhist, ?_, ?_⟩
        · rw [hchain]
          exact LookupMap.get_remove_self _ _
        · rw [hchain]
          exact satAdd_eq hrevenue
        · rw [amountTo_excessCredit, if_pos rfl]
          exact (excess_eq_iff terms.covered terms.bound).mpr hconfig
        · intro a ha
          rw [amountTo_excessCredit, if_neg ha]
  | panicked he hchain =>
    -- A panic comes from the missing entry, and the chain stays in flight.
    refine iff_of_false ?_ ?_
    · rintro ⟨hgone, -⟩
      rw [hchain] at hgone
      exact absurd hgone (by simp [Chain.setFlight])
    · rintro ⟨⟨sub, hsub⟩, -⟩
      rw [PendingRent.key] at hsub
      simp only [Flight.callback, TlaRegistry.onSubAccountCreated, if_true,
        Outcome.refundExcess_of, hsub, okOr] at he
      cases he
  | advanced hnone => cases hnone

/-! ## A config change in between -/

namespace Sample

/-- The creation of `n.hos` has succeeded and its callback is due. -/
def created : List Label := opening ++ [rent alice, .deliver 2 true, .deliver 2 true]

/-- The admin halves the creation deposit before the callback. -/
def cheaper : List Label :=
  created ++ [call admin 0 (.updateFeeConfig
    { defaultFeeConfig with accountCreationDeposit := oneNear })]

def pending : PendingRent where
  tlaId := tla
  name := name
  ownerKey := ownerKey
  creationDeposit := 2 * oneNear
  payer := alice
  rent := 75 * oneNear
  attached := 100 * oneNear

end Sample

/-- With a cheaper creation deposit the callback credits what was forwarded already. -/
theorem charge_follows_config :
    ∃ s s' : System, s.Reached Sample.genesis ∧
      s.chain.flights.get 2 = some (.created Sample.pending true) ∧
      s.step (.deliver 2 true) = some s' ∧ ¬ ChargedExactly s s' 2 Sample.pending := by
  refine ⟨Sample.historyAfter Sample.cheaper (by decide +kernel),
    (System.step _ (.deliver 2 true)).get (by decide +kernel), Sample.history_reached _ _, rfl,
    (Option.some_get _).symm, ?_⟩
  rintro ⟨-, -, credits, hcredits, hcharge, -⟩
  have hcredited : ((System.step (Sample.historyAfter Sample.cheaper (by decide +kernel))
      (.deliver 2 true)).get (by decide +kernel)).history.credits =
        [] ++ [(Sample.alice, 24 * oneNear)] := by decide +kernel
  rw [hcredited] at hcredits
  rw [← List.append_cancel_left hcredits] at hcharge
  exact absurd hcharge (by decide +kernel)

/-- Without the change the callback charges what was taken. -/
theorem charged_exactly_iff_created :
    (∃ rec o, (Sample.historyAfter Sample.created (by decide +kernel)).history.opened 2 =
        some rec ∧ rec.outcome = some o ∧ RentTerms rec Sample.pending) ∧
      (ChargedExactly (Sample.historyAfter Sample.created (by decide +kernel))
          ((System.step (Sample.historyAfter Sample.created (by decide +kernel))
            (.deliver 2 true)).get (by decide +kernel)) 2 Sample.pending ↔
        ChargesExactly (Sample.historyAfter Sample.created (by decide +kernel)).chain.registry
          Sample.pending) :=
  charged_exactly_iff (Sample.history_reached Sample.created _) rfl (Option.some_get _).symm

end HosTla
