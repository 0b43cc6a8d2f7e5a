-- SUMMARY: A rental or a sale that fails before anything else happens leaves the registry as it was, but for the refund and the default mother.
import HosTla.Safety.Counters
import HosTla.Chain.Receipts

/-!
# Rollbacks

A rental and a sale write before their outcome is known: the entry and the count of the TLA,
the lock of a listing or an offer. Each way of failing has to take all of it back.
-/

namespace HosTla

open Foundation

/-! ## The writes of a call and what takes them back -/

namespace TlaRegistry

variable {r : TlaRegistry}

/-- A count that has dropped to zero is not stored. -/
def CountsStored (r : TlaRegistry) : Prop := ∀ tlaId, r.businessSubCount.get tlaId ≠ some 0

/-- What `on_sub_account_created` removes when the creation has failed. -/
def withoutRental (r : TlaRegistry) (p : PendingRent) : TlaRegistry :=
  { r with
    subAccounts := r.subAccounts.remove p.key
    businessSubCount := r.releasedCount p.tlaId }

theorem releasedCount_ne_zero (h : r.CountsStored) (released tlaId : AccountId) :
    (r.releasedCount released).get tlaId ≠ some 0 := by
  unfold releasedCount
  split
  · split
    · rw [LookupMap.get_remove]
      split
      · simp
      · exact h tlaId
    · rename_i hlast
      rw [LookupMap.get_insert]
      split
      · simpa using hlast
      · exact h tlaId
  · exact h tlaId

/-- A count that was raised and is released is what it was, stored or not. -/
theorem releasedCount_insert (h : r.CountsStored) {r' : TlaRegistry} {tlaId : AccountId}
    (hbusiness : r'.isBusiness tlaId = true)
    (hraised : r'.businessSubCount =
      r.businessSubCount.insert tlaId (r.getBusinessSubCount tlaId + 1)) :
    r'.releasedCount tlaId = r.businessSubCount := by
  have hcount : r'.getBusinessSubCount tlaId = r.getBusinessSubCount tlaId + 1 := by
    simp [getBusinessSubCount, hraised]
  unfold releasedCount
  rw [if_pos ⟨hbusiness, by omega⟩, hcount, hraised, Nat.add_sub_cancel]
  cases hget : r.businessSubCount.get tlaId with
  | none =>
    rw [if_pos (by simp [getBusinessSubCount, hget])]
    exact LookupMap.remove_insert hget _
  | some n =>
    have hn : r.getBusinessSubCount tlaId = n := by simp [getBusinessSubCount, hget]
    have hpos : n ≠ 0 := fun hzero => h tlaId (by rw [hget, hzero])
    rw [hn, if_neg hpos]
    exact LookupMap.insert_insert hget _

end TlaRegistry

section

variable {env : Env} {r : TlaRegistry} {o : Outcome} {tlaId : AccountId} {name : Str}

/-- The removal of a failed creation takes back all a rental wrote but the default mother. -/
theorem Accepted.withoutRental {ownerKey : PublicKey} {mainWallet : AccountId}
    (h : Accepted env r (.rentSubAccount tlaId name ownerKey mainWallet) o)
    (hstored : r.CountsStored) :
    ∃ p : PendingRent, o.promise = some (.createSubAccount p) ∧ p.payer = env.predecessor ∧
      p.attached = env.attachedDeposit ∧
      o.registry.withoutRental p = r.ensureMotherDefault env.predecessor := by
  cases h with
  | configured hop => cases hop
  | resale hop => cases hop
  | @rentSubAccount _ _ _ _ tla rent _ _ hfree _ htla _ _ _ _ hcap =>
    refine ⟨_, rfl, rfl, rfl, ?_⟩
    rw [r.ensureMotherDefault_eq]
    unfold TlaRegistry.withoutRental
    congr 1
    · exact LookupMap.remove_insert hfree _
    · have hown : r.tlaType tlaId = some tla.tlaType := by simp [TlaRegistry.tlaType, htla]
      by_cases htype : tla.tlaType = .business
      · have hle := r.effectiveBusinessCap_le tlaId
        have hroom := hcap htype
        have hraised : satAdd u32Max (r.getBusinessSubCount tlaId) 1 =
            r.getBusinessSubCount tlaId + 1 := satAdd_eq (by omega)
        refine TlaRegistry.releasedCount_insert hstored ?_ ?_
        · exact TlaRegistry.isBusiness_eq_true.mpr (hown.trans (congrArg some htype))
        · rw [← hraised]
          exact if_pos htype
      · refine (TlaRegistry.releasedCount_of_open ?_).trans (if_neg htype)
        rw [← Bool.not_eq_true, TlaRegistry.isBusiness_eq_true]
        intro hbusiness
        exact htype (Option.some.inj (hown.symm.trans hbusiness))

/-- Whichever record a sale locked, the two of the key are what they were. -/
theorem Accepted.clearSettling {newOwnerKey : PublicKey}
    (h : Accepted env r (.buySubAccount tlaId name newOwnerKey) o) :
    ∃ b : PendingBuy, (∃ promise, o.promise = some promise ∧ promise.flight.selling = some b) ∧
      b.buyer = env.predecessor ∧ b.deposit = env.attachedDeposit ∧
      o.registry.clearSettling b.key = r := by
  cases h with
  | configured hop => cases hop
  | resale hop => cases hop
  | @buySubAccount _ seller subAccount _ _ listings acceptedOffers price _ hidle _ hlock =>
    let b : PendingBuy := { tlaId, name, newOwnerKey, price
                            buyer := env.predecessor, deposit := env.attachedDeposit }
    refine ⟨b, ⟨_, rfl, ?_⟩, rfl, rfl, ?_⟩
    · split <;> rfl
    · obtain ⟨hlisting, hoffer⟩ := TlaRegistry.assertSaleIdle_eq_ok.mp hidle
      have hlistings : ∀ l, r.listings.get b.key = some l → { l with settling := false } = l :=
        fun l hl => by rw [← hlisting l hl]
      have hoffers : ∀ x, r.acceptedOffers.get b.key = some x → { x with settling := false } = x :=
        fun x hx => by rw [← hoffer x hx]
      have hback : listings.modify b.key (fun l => { l with settling := false }) = r.listings ∧
          acceptedOffers.modify b.key (fun x => { x with settling := false }) = r.acceptedOffers := by
        cases hlock with
        | @offer x hx =>
          exact ⟨LookupMap.modify_eq_self hlistings, LookupMap.modify_insert hx (hoffers x hx)⟩
        | @listing l _ hl =>
          exact ⟨LookupMap.modify_insert hl (hlistings l hl), LookupMap.modify_eq_self hoffers⟩
      simp only [TlaRegistry.clearSettling, Outcome.withPromise, hback.1, hback.2]

/-! ## Counts that are stored -/

theorem Accepted.countsStored {op : Op} (h : Accepted env r op o) (hstored : r.CountsStored) :
    o.registry.CountsStored := by
  cases h with
  | rentSubAccount =>
    intro t
    simp only [Outcome.withPromise]
    split
    · rw [LookupMap.get_insert]
      split
      · simp [satAdd, u32Max]
      · exact hstored t
    · exact hstored t
  | _ => exact hstored

theorem Settled.countsStored {fl : Flight} (h : Settled r fl o) (hstored : r.CountsStored) :
    o.registry.CountsStored := by
  cases h with
  | creationFailed | reclaimed | exported => exact TlaRegistry.releasedCount_ne_zero hstored _
  | _ => exact hstored

end

theorem Chain.Reached.countsStored {g : Genesis} {c : Chain} (h : c.Reached g) :
    c.registry.CountsStored := by
  refine h.registry ?_ (fun _ _ _ _ hstored ho => ho.countsStored hstored)
    fun _ _ _ hstored ho => ho.countsStored hstored
  intro tlaId hget
  cases hget

/-! ## An operation on its own -/

/-- The step is a receipt, an answer or a callback of the chain with this id. -/
def Label.Drives (id : ℕ) : Label → Prop
  | .deliver i _ | .answer i _ _ => i = id
  | _ => False

/-- The callback that is due makes a rental or a sale final. -/
def Flight.succeeded : Flight → Bool
  | .created _ ok | .sold _ ok => ok
  | _ => false

/-- The operation moves on its own and does not succeed. -/
def Chain.FailsAlong (c : Chain) (id : ℕ) (l : Label) : Prop :=
  l.Drives id ∧ ∀ fl ∈ c.flights.get id, fl.succeeded = false

instance (id : ℕ) (l : Label) : Decidable (l.Drives id) := by
  delta Label.Drives
  rcases l with _ | _ <;> infer_instance

instance (id : ℕ) (c : Chain) (l : Label) : Decidable (c.FailsAlong id l) :=
  inferInstanceAs (Decidable (_ ∧ _))

/-- The call is accepted, and its operation comes to an end without success and with no
other step in between. -/
structure Chain.Fails (c : Chain) (predecessor : AccountId) (deposit reserve : ℕ) (op : Op)
    (c' : Chain) : Prop where
  accepted : (c.callOutcome predecessor deposit reserve op).isSome = true
  run : ∃ c₁ tr, c.step (.call predecessor deposit reserve op) = some c₁ ∧
    Run Chain.step c₁ tr c' ∧ Meets (fun s => s.FailsAlong c.nextId) tr
  ended : c'.flights.get c.nextId = none

/-! ## What is left of a failed operation -/

/-- `f` reads `x` off the chain of an operation that works on `r`. Each of its callbacks that
is no success passes the operation on, or ends it with the registry `r'`. -/
def Flight.EndsIn {α : Type} (f : Flight → Option α) (x : α) (r r' : TlaRegistry) : Prop :=
  ∀ fl o, f fl = some x → fl.succeeded = false → Settled r fl o →
    (o.registry = r ∧ ∃ q, o.promise = some q ∧ f q.flight = some x) ∨
      o.registry = r' ∧ o.promise = none

namespace Chain

variable {c c' : Chain} {l : Label} {id : ℕ} {α : Type} {f : Flight → Option α} {x : α}
  {r r' : TlaRegistry}

/-- A chain that has ended moves no more. -/
theorem FailsAlong.get_ne_none (h : c.FailsAlong id l) (hstep : c.step l = some c') :
    c.flights.get id ≠ none := by
  intro hnone
  cases l with
  | deliver i ok => cases h.1; simp [step, hnone] at hstep
  | answer i index reply => cases h.1; simp [step, hnone] at hstep
  | _ => exact h.1

/-- The operation is on its way and nothing has been settled, or it has failed. -/
def Failing (f : Flight → Option α) (x : α) (id : ℕ) (r r' : TlaRegistry) (c : Chain) : Prop :=
  (c.registry = r ∧ c.about f id = some x) ∨ c.registry = r' ∧ c.flights.get id = none

theorem Failing.step (hf : Flight.Kept f) (hends : Flight.EndsIn f x r r') (hfresh : c.FreshIds)
    (h : Failing f x id r r' c) (halong : c.FailsAlong id l) (hstep : c.step l = some c') :
    Failing f x id r r' c' := by
  rcases h with ⟨rfl, habout⟩ | ⟨-, hnone⟩
  · obtain ⟨fl, hfl, hx⟩ := Option.bind_eq_some_iff.mp habout
    obtain ⟨hdrives, hfails⟩ := halong
    cases move_of_step hstep with
    | @settled _ _ _ o hfl' _ ho =>
      cases hdrives
      cases hfl.symm.trans hfl'
      rcases hends fl o hx (hfails fl hfl) ho with ⟨hreg, q, hq, hxq⟩ | ⟨hreg, hnone⟩
      · refine .inl ⟨hreg, ?_⟩
        rw [about_settle_self, hq]
        exact hxq
      · refine .inr ⟨hreg, ?_⟩
        simp [settle, hnone]
    | panicked hfl' _ he =>
      cases hdrives
      cases hfl.symm.trans hfl'
      exact .inl ⟨rfl, (about_setFlight hfl (hf.panicked he) _).trans habout⟩
    | advanced hfl' _ _ hadvance =>
      cases hdrives
      have hadv := advanced_of_advance hadvance
      exact .inl ⟨hadv.registry, (hadv.about hf hfresh hfl' _).trans habout⟩
    | answered hfl' hanswer =>
      cases hdrives
      exact .inl ⟨hanswer.registry, (hanswer.about hf hfl' _).trans habout⟩
    | _ => exact hdrives.elim
  · exact absurd hnone (halong.get_ne_none hstep)

/-- What an operation leaves that fails on its own. -/
theorem Fails.registry {g : Genesis} (hc : c.Reached g) {predecessor : AccountId}
    {deposit reserve : ℕ} {op : Op} (h : c.Fails predecessor deposit reserve op c')
    (hf : Flight.Kept f) {o : Outcome} (hcall : c.callOutcome predecessor deposit reserve op = some o)
    {q : Promise} (hq : o.promise = some q) (hx : f q.flight = some x)
    (hends : Flight.EndsIn f x o.registry r') : c'.registry = r' := by
  obtain ⟨c₁, tr, hstep, hrun, halong⟩ := h.run
  have hc₁ := hc.snoc hstep
  have hfirst : Failing f x c.nextId o.registry r' c₁ := by
    have hmove : c.Move (.call predecessor deposit reserve op) c₁ := move_of_step hstep
    cases hmove with
    | rejected hnone => cases hcall.symm.trans hnone
    | accepted hcall' =>
      cases hcall.symm.trans hcall'
      exact .inl ⟨rfl, (about_accept_self hq).trans hx⟩
  have hlast : Failing f x c.nextId o.registry r' c' := by
    refine hrun.guarded hfirst ?_ halong
    intro s l s' hs hfailing halong hstep
    obtain ⟨tr, hs⟩ := hs
    exact hfailing.step hf hends (Reached.freshIds (hc₁.run hs)) halong hstep
  rcases hlast with ⟨-, habout⟩ | ⟨hreg, -⟩
  · rw [Chain.about, h.ended] at habout
    cases habout
  · exact hreg

end Chain

/-- A failed creation removes what the rental entered and refunds the deposit. -/
theorem Flight.renting_endsIn (p : PendingRent) (r : TlaRegistry) :
    EndsIn renting p r ((r.withoutRental p).addPendingRefund p.payer p.attached) := by
  intro fl o hrenting hfails ho
  cases ho with
  | created => cases hfails
  | creationFailed => cases hrenting; exact .inr ⟨rfl, rfl⟩
  | _ => cases hrenting

/-- A sale that is blocked or not transferred takes its lock off and refunds the deposit. -/
theorem Flight.selling_endsIn (b : PendingBuy) (r : TlaRegistry) :
    EndsIn selling b r ((r.clearSettling b.key).addPendingRefund b.buyer b.deposit) := by
  intro fl o hselling hfails ho
  cases ho with
  | sold | saleVoid => cases hfails
  | saleBlocked | saleFailed => cases hselling; exact .inr ⟨rfl, rfl⟩
  | saleCleared => cases hselling; exact .inl ⟨rfl, _, rfl, rfl⟩
  | _ => cases hselling

/-- A rental whose creation fails, and a sale that fails in any way, leave the registry as
it was before the call, but for the deposit that is credited to the caller, and for the
default mother of a caller that rents. The two amounts stop at the largest one there is. -/
theorem failed_operation_undone {g : Genesis} {c c' : Chain} (hc : c.Reached g)
    {caller tlaId : AccountId} {deposit reserve : ℕ} {name : Str} :
    (∀ ownerKey mainWallet,
      c.Fails caller deposit reserve (.rentSubAccount tlaId name ownerKey mainWallet) c' →
        c'.registry = (c.registry.ensureMotherDefault caller).addPendingRefund caller deposit) ∧
    ∀ newOwnerKey, c.Fails caller deposit reserve (.buySubAccount tlaId name newOwnerKey) c' →
      c'.registry = c.registry.addPendingRefund caller deposit := by
  constructor
  · intro ownerKey mainWallet h
    obtain ⟨o, hcall⟩ := Option.isSome_iff_exists.mp h.accepted
    have ho := (Chain.accepted_of_callOutcome hcall).2
    obtain ⟨p, hp, hpayer, hattached, hback⟩ := ho.withoutRental hc.countsStored
    have hreg := h.registry hc Flight.renting_kept hcall hp rfl (Flight.renting_endsIn p _)
    rw [hreg, hback, hpayer, hattached]
    rfl
  · intro newOwnerKey h
    obtain ⟨o, hcall⟩ := Option.isSome_iff_exists.mp h.accepted
    have ho := (Chain.accepted_of_callOutcome hcall).2
    obtain ⟨b, ⟨q, hq, hb⟩, hbuyer, hdeposit, hback⟩ := ho.clearSettling
    have hreg := h.registry hc Flight.selling_kept hcall hq hb (Flight.selling_endsIn b _)
    rw [hreg, hback, hbuyer, hdeposit]
    rfl

/-! ## The largest amount -/

/-- A call and the moves after it, executed. -/
theorem Chain.Fails.of_exec {c c' : Chain} {caller : AccountId} {deposit reserve : ℕ} {op : Op}
    {ls : List Label} (haccepted : (c.callOutcome caller deposit reserve op).isSome = true)
    (hexec : exec Chain.step c (.call caller deposit reserve op :: ls) = some c')
    (hchecks : (c.step (.call caller deposit reserve op)).elim false (fun c₁ =>
      checks Chain.step (fun s => s.FailsAlong c.nextId) c₁ ls) = true)
    (hended : c'.flights.get c.nextId = none) : c.Fails caller deposit reserve op c' := by
  rw [exec, Option.bind_eq_some_iff] at hexec
  obtain ⟨c₁, hstep, hexec⟩ := hexec
  obtain ⟨tr, hrun, hlabels⟩ := Run.of_exec hexec
  rw [hstep, Option.elim_some, ← hlabels] at hchecks
  exact ⟨haccepted, ⟨c₁, tr, hstep, hrun, hrun.meets_of_checks hchecks⟩, hended⟩

namespace Sample

def dearRent (renter : AccountId) : Label :=
  call renter (2 ^ 127 + 100 * oneNear) (.rentSubAccount tla name ownerKey renter)

/-- At a creation deposit of `2 ^ 127` the batch of Alice's rental fails. The deposit goes
to the manager, and all Alice has paid waits for her. -/
def unbacked : List Label :=
  opening ++ [call admin 0 (.updateFeeConfig
      { defaultFeeConfig with accountCreationDeposit := 2 ^ 127 }),
    dearRent alice, .deliver 3 true, .deliver 3 false, .deliver 4 true, .deliver 3 true]

/-- The same happens to Bob. -/
def unbackedAgain : List Label :=
  [dearRent bob, .deliver 5 true, .deliver 5 false, .deliver 5 true]

/-- The manager refuses the rental of Alice. -/
def refused : List Label := [rent alice, .deliver 2 false, .deliver 2 true]

/-- `n.hos` is Alice's and on sale. -/
def onSale : List Label := rented ++ [call alice 1 (.listSubAccount tla name 5)]

/-- The transfer of Bob's purchase fails. -/
def untransferred : List Label :=
  [call bob 5 (.buySubAccount tla name otherKey), .deliver 4 false, .deliver 4 true]

end Sample

/-- The total of the refunds stops at `2 ^ 128 - 1`, short of the deposit of Bob. -/
theorem refund_total_saturates :
    ∃ c c' : Chain, c.Reached Sample.genesis ∧
      c.Fails Sample.bob (2 ^ 127 + 100 * oneNear) 0
        (.rentSubAccount Sample.tla Sample.name Sample.ownerKey Sample.bob) c' ∧
      c'.registry.totalPendingRefunds ≠
        c.registry.totalPendingRefunds + (2 ^ 127 + 100 * oneNear) := by
  have hfails : (Sample.after Sample.unbacked (by decide +kernel)).Fails Sample.bob
      (2 ^ 127 + 100 * oneNear) 0
      (.rentSubAccount Sample.tla Sample.name Sample.ownerKey Sample.bob)
      ((exec Chain.step (Sample.after Sample.unbacked (by decide +kernel))
        Sample.unbackedAgain).get (by decide +kernel)) :=
    .of_exec (by decide +kernel) (Option.some_get _).symm (by decide +kernel) (by decide +kernel)
  exact ⟨_, _, Sample.reached _ _, hfails, by decide +kernel⟩

theorem failed_operation_undone_refused :
    ∃ c c' d d' : Chain,
      c.Fails Sample.alice (100 * oneNear) 0
        (.rentSubAccount Sample.tla Sample.name Sample.ownerKey Sample.alice) c' ∧
      c'.registry = (c.registry.ensureMotherDefault Sample.alice).addPendingRefund Sample.alice
        (100 * oneNear) ∧
      d.Fails Sample.bob 5 0 (.buySubAccount Sample.tla Sample.name Sample.otherKey) d' ∧
      d'.registry = d.registry.addPendingRefund Sample.bob 5 := by
  have hrent : (Sample.after Sample.opening (by decide +kernel)).Fails Sample.alice
      (100 * oneNear) 0 (.rentSubAccount Sample.tla Sample.name Sample.ownerKey Sample.alice)
      ((exec Chain.step (Sample.after Sample.opening (by decide +kernel)) Sample.refused).get
        (by decide +kernel)) :=
    .of_exec (by decide +kernel) (Option.some_get _).symm (by decide +kernel) (by decide +kernel)
  have hbuy : (Sample.after Sample.onSale (by decide +kernel)).Fails Sample.bob 5 0
      (.buySubAccount Sample.tla Sample.name Sample.otherKey)
      ((exec Chain.step (Sample.after Sample.onSale (by decide +kernel)) Sample.untransferred).get
        (by decide +kernel)) :=
    .of_exec (by decide +kernel) (Option.some_get _).symm (by decide +kernel) (by decide +kernel)
  exact ⟨_, _, _, _, hrent, (failed_operation_undone (Sample.reached _ _)).1 _ _ hrent,
    hbuy, (failed_operation_undone (Sample.reached _ _)).2 _ hbuy⟩

end HosTla
