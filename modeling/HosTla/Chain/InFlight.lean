-- SUMMARY: What the chains in flight carry from the calls that opened them, whatever order they move in.
import HosTla.Chain.Moves

/-!
# Chains in flight

A chain keeps the arguments of the call that opened it until it ends. `Carried f`
says so for the data `f` reads off a chain. Each chain in flight then goes back to an
accepted call that the history has on record.
-/

namespace HosTla

open Foundation

namespace Flight

/-- A rental the registry has not settled. A panicked callback leaves it so. -/
def renting : Flight → Option PendingRent
  | .createCall p | .createBatch p _ _ | .created p _ => some p
  | .panicked (.created p _) => some p
  | _ => none

/-- A sale the registry has not settled. -/
def selling : Flight → Option PendingBuy
  | .buyQueries _ b _ _ | .transferCall _ b | .sold b _ => some b
  | _ => none

/-- A reclaim that may still delete its account. -/
def deleting : Flight → Option PendingReclaim
  | .reclaimQueries _ p _ _ | .finalizeCall _ p | .deleteAccount _ p _ => some p
  | _ => none

/-- `f` reads the same data at every stage of a chain at which it reads any. -/
structure Carried {α : Type} (f : Flight → Option α) : Prop where
  next : ∀ {self : AccountId} {fl fl' : Flight} {back : Option (AccountId × ℕ)} {x : α},
    fl.Next self (some fl') back → f fl' = some x → f fl = some x
  callback : ∀ {r : TlaRegistry} {fl : Flight} {o : Outcome} {p : Promise} {x : α},
    Settled r fl o → o.promise = some p → f p.flight = some x → f fl = some x
  panicked : ∀ {fl : Flight} {x : α}, f (.panicked fl) = some x → f fl = some x
  reclaimAnswer : ∀ {a p allowlist answers answers'},
    f (.reclaimQueries a p allowlist answers) = f (.reclaimQueries a p allowlist answers')
  buyAnswer : ∀ {a b allowlist answers answers'},
    f (.buyQueries a b allowlist answers) = f (.buyQueries a b allowlist answers')
  sweep : ∀ {fl : Flight}, fl.isSweep = true → f fl = none
  refund : ∀ {receiver amount}, f (.refund receiver amount) = none

theorem isSweep_renting {fl : Flight} (h : fl.isSweep = true) : fl.renting = none := by
  cases fl <;> first | rfl | cases h

theorem isSweep_selling {fl : Flight} (h : fl.isSweep = true) : fl.selling = none := by
  cases fl <;> first | rfl | cases h

theorem isSweep_deleting {fl : Flight} (h : fl.isSweep = true) : fl.deleting = none := by
  cases fl <;> first | rfl | cases h

theorem renting_carried : Carried renting where
  next := by
    intro self fl fl' back x hnext hx
    cases hnext with
    | sweep _ h => rw [isSweep_renting h] at hx; cases hx
    | _ => exact hx
  callback := by
    intro r fl o p x ho hp hx
    cases ho <;> cases hp <;> cases hx
  panicked := by
    intro fl x hx
    cases fl <;> first | exact hx | cases hx
  reclaimAnswer := rfl
  buyAnswer := rfl
  sweep := isSweep_renting
  refund := rfl

theorem selling_carried : Carried selling where
  next := by
    intro self fl fl' back x hnext hx
    cases hnext with
    | sweep _ h => rw [isSweep_selling h] at hx; cases hx
    | _ => exact hx
  callback := by
    intro r fl o p x ho hp hx
    cases ho <;> cases hp <;> exact hx
  panicked := by
    intro fl x hx
    cases hx
  reclaimAnswer := rfl
  buyAnswer := rfl
  sweep := isSweep_selling
  refund := rfl

theorem deleting_carried : Carried deleting where
  next := by
    intro self fl fl' back x hnext hx
    cases hnext with
    | sweep _ h => rw [isSweep_deleting h] at hx; cases hx
    | _ => first | exact hx | cases hx
  callback := by
    intro r fl o p x ho hp hx
    cases ho <;> cases hp <;> exact hx
  panicked := by
    intro fl x hx
    cases hx
  reclaimAnswer := rfl
  buyAnswer := rfl
  sweep := isSweep_deleting
  refund := rfl

end Flight

/-! ## The flights after a move -/

namespace Chain

/-- The ids in use are below the next one. -/
def FreshIds (c : Chain) : Prop := ∀ id fl, c.flights.get id = some fl → id < c.nextId

variable {c c' : Chain} {l : Label}

theorem get_nextFlights {id i : ℕ} {fl : Option Flight} {fl' : Flight}
    (h : (c.nextFlights id fl).get i = some fl') :
    (i = id ∧ fl = some fl') ∨ (i ≠ id ∧ c.flights.get i = some fl') := by
  cases fl with
  | none =>
    obtain ⟨hi, h⟩ := LookupMap.get_of_get_remove h
    exact .inr ⟨hi, h⟩
  | some fl =>
    rcases LookupMap.get_of_get_insert h with ⟨hi, rfl⟩ | ⟨hi, h⟩
    · exact .inl ⟨hi, rfl⟩
    · exact .inr ⟨hi, h⟩

/-- A flight after a callback or an accepted call, as far as the promise goes. -/
theorem get_settle {id i : ℕ} {o : Outcome} {fl : Flight}
    (h : (c.settle id o).flights.get i = some fl) :
    (∃ p, i = id ∧ o.promise = some p ∧ fl = p.flight) ∨
      (i ≠ id ∧ c.flights.get i = some fl) := by
  cases hp : o.promise with
  | none =>
    simp only [settle, hp, Option.elim_none] at h
    obtain ⟨hi, h⟩ := LookupMap.get_of_get_remove h
    exact .inr ⟨hi, h⟩
  | some p =>
    simp only [settle, hp, Option.elim_some] at h
    rcases LookupMap.get_of_get_insert h with ⟨hi, rfl⟩ | ⟨hi, h⟩
    · exact .inl ⟨p, hi, rfl, rfl⟩
    · exact .inr ⟨hi, h⟩

theorem get_accept {i deposit : ℕ} {o : Outcome} {fl : Flight}
    (h : (c.accept deposit o).flights.get i = some fl) :
    (∃ p, i = c.nextId ∧ o.promise = some p ∧ fl = p.flight) ∨ c.flights.get i = some fl := by
  cases hp : o.promise with
  | none =>
    simp only [accept, hp, Option.elim_none] at h
    exact .inr h
  | some p =>
    simp only [accept, hp, Option.elim_some] at h
    rcases LookupMap.get_of_get_insert h with ⟨hi, rfl⟩ | ⟨hi, h⟩
    · exact .inl ⟨p, hi, rfl, rfl⟩
    · exact .inr h

theorem Advanced.get {id i : ℕ} {fl fl' : Flight} (h : c.Advanced id fl c')
    (hget : c'.flights.get i = some fl') :
    (i = id ∧ ∃ back, fl.Next c.self (some fl') back) ∨
      (i ≠ id ∧ c.flights.get i = some fl') ∨
      (i = c.nextId ∧ c.nextId < c'.nextId ∧ ∃ receiver amount, fl' = .refund receiver amount) := by
  obtain ⟨next, back, hnext, hid, hfl⟩ := h.flights
  -- A refund sits on a fresh id, and the other ids are those of `nextFlights`.
  have hstay (hget : (c.nextFlights id next).get i = some fl') :
      (i = id ∧ ∃ back, fl.Next c.self (some fl') back) ∨
        (i ≠ id ∧ c.flights.get i = some fl') := by
    rcases get_nextFlights hget with ⟨hi, rfl⟩ | ⟨hi, hget⟩
    · exact .inl ⟨hi, back, hnext⟩
    · exact .inr ⟨hi, hget⟩
  rw [hfl] at hget
  cases back with
  | none => exact (hstay hget).imp_right .inl
  | some b =>
    rcases LookupMap.get_of_get_insert hget with ⟨hi, rfl⟩ | ⟨-, hget⟩
    · exact .inr (.inr ⟨hi, hid rfl, _, _, rfl⟩)
    · exact (hstay hget).imp_right .inl

theorem Answered.get {id i : ℕ} {fl fl' : Flight} (h : c.Answered id fl c')
    (hget : c'.flights.get i = some fl') :
    i = id ∨ (i ≠ id ∧ c.flights.get i = some fl') := by
  cases h <;>
  · rcases LookupMap.get_of_get_insert hget with ⟨hi, -⟩ | h
    · exact .inl hi
    · exact .inr h

theorem Answered.nextId {id : ℕ} {fl : Flight} (h : c.Answered id fl c') :
    c'.nextId = c.nextId := by
  cases h <;> rfl

theorem Answered.registry {id : ℕ} {fl : Flight} (h : c.Answered id fl c') :
    c'.registry = c.registry := by
  cases h <;> rfl

theorem Answered.balance {id : ℕ} {fl : Flight} (h : c.Answered id fl c') :
    c'.balance = c.balance := by
  cases h <;> rfl

theorem Answered.self {id : ℕ} {fl : Flight} (h : c.Answered id fl c') :
    c'.self = c.self := by
  cases h <;> rfl

theorem Move.freshIds (hmove : c.Move l c') (h : c.FreshIds) : c'.FreshIds := by
  intro i fl hget
  cases hmove with
  | accepted =>
    rcases get_accept hget with ⟨p, rfl, -⟩ | hget
    · exact Nat.lt_succ_self _
    · exact Nat.lt_succ_of_lt (h i fl hget)
  | settled hfl =>
    rcases get_settle hget with ⟨p, rfl, -⟩ | ⟨-, hget⟩
    · exact h _ _ hfl
    · exact h _ _ hget
  | panicked hfl =>
    rcases LookupMap.get_of_get_insert hget with ⟨rfl, -⟩ | ⟨-, hget⟩
    · exact h _ _ hfl
    · exact h _ _ hget
  | advanced hfl _ _ hadvance =>
    have hadv := advanced_of_advance hadvance
    rcases hadv.get hget with ⟨rfl, -⟩ | ⟨-, hget⟩ | ⟨rfl, hid, -⟩
    · exact Nat.lt_of_lt_of_le (h _ _ hfl) hadv.nextId
    · exact Nat.lt_of_lt_of_le (h _ _ hget) hadv.nextId
    · exact hid
  | answered hfl hanswer =>
    rw [hanswer.nextId]
    rcases hanswer.get hget with rfl | ⟨-, hget⟩
    · exact h _ _ hfl
    · exact h _ _ hget
  | _ => exact h i fl hget

/-- The registry stays where it was deployed. -/
theorem self_of_step (hstep : c.step l = some c') : c'.self = c.self := by
  cases move_of_step hstep with
  | advanced _ _ _ hadvance => exact (advanced_of_advance hadvance).self
  | answered _ hanswer => exact hanswer.self
  | _ => rfl

theorem Move.nextId_le (hmove : c.Move l c') : c.nextId ≤ c'.nextId := by
  cases hmove with
  | accepted => exact Nat.le_succ _
  | advanced _ _ _ hadvance => exact (advanced_of_advance hadvance).nextId
  | answered _ hanswer => exact Nat.le_of_eq hanswer.nextId.symm
  | _ => exact Nat.le_refl _

/-- A move leaves the registry, or writes it by an accepted call or a callback. -/
theorem Move.registry (hmove : c.Move l c') :
    c'.registry = c.registry ∨
      (∃ predecessor deposit reserve op o, l = .call predecessor deposit reserve op ∧
        c.callOutcome predecessor deposit reserve op = some o ∧
        c.nativeTotal + deposit < u128Max ∧
        Accepted (c.callEnv predecessor deposit reserve) c.registry op o ∧
        c'.registry = o.registry) ∨
      ∃ id ok fl o, l = .deliver id ok ∧ c.flights.get id = some fl ∧
        Settled c.registry fl o ∧ c'.registry = o.registry := by
  cases hmove with
  | accepted hcall hbound _ ho =>
    exact .inr (.inl ⟨_, _, _, _, _, rfl, hcall, hbound, ho, rfl⟩)
  | settled hfl _ ho => exact .inr (.inr ⟨_, _, _, _, rfl, hfl, ho, rfl⟩)
  | advanced _ _ _ hadvance => exact .inl (advanced_of_advance hadvance).registry
  | answered _ hanswer => exact .inl hanswer.registry
  | _ => exact .inl rfl

/-- What holds of the registry at first and is kept by accepted calls and by callbacks holds
on every chain reached. -/
theorem Reached.registry {g : Genesis} {I : TlaRegistry → Prop} (h : c.Reached g)
    (hinit : I (Chain.init g).registry)
    (haccepted : ∀ env r op o, I r → Accepted env r op o → I o.registry)
    (hsettled : ∀ r fl o, I r → Settled r fl o → I o.registry) : I c.registry := by
  refine h.invariant (I := fun c => I c.registry) hinit ?_
  intro c l c' hI hstep
  rcases (move_of_step hstep).registry with
    heq | ⟨_, _, _, _, _, -, -, -, ho, heq⟩ | ⟨_, _, _, _, -, -, ho, heq⟩
  · rwa [heq]
  · rw [heq]
    exact haccepted _ _ _ _ hI ho
  · rw [heq]
    exact hsettled _ _ _ hI ho

/-- Where a flight comes from that a move puts at `i`. -/
inductive Arises (c : Chain) : Label → ℕ → Flight → Prop
  | opened {predecessor : AccountId} {deposit reserve : ℕ} {op : Op} {o : Outcome} {p : Promise}
      (hcall : c.callOutcome predecessor deposit reserve op = some o)
      (hbound : c.nativeTotal + deposit < u128Max) (hp : o.promise = some p) :
      Arises c (.call predecessor deposit reserve op) c.nextId p.flight
  | handed {i : ℕ} {ok : Bool} {fl : Flight} {o : Outcome} {p : Promise}
      (hfl : c.flights.get i = some fl) (ho : Settled c.registry fl o) (hp : o.promise = some p) :
      Arises c (.deliver i ok) i p.flight
  | panicked {i : ℕ} {ok : Bool} {fl : Flight} {e : ContractError}
      (hfl : c.flights.get i = some fl) (he : fl.callback c.registry = some (.error e)) :
      Arises c (.deliver i ok) i (.panicked fl)
  | next {i : ℕ} {ok : Bool} {fl fl' : Flight} {back : Option (AccountId × ℕ)} {c' : Chain}
      (hfl : c.flights.get i = some fl) (hadvance : c.advance i ok fl = some c')
      (hnext : fl.Next c.self (some fl') back) (hget : c'.flights.get i = some fl') :
      Arises c (.deliver i ok) i fl'
  | refund {id i : ℕ} {ok : Bool} {receiver : AccountId} {amount : ℕ} :
      Arises c (.deliver id ok) i (.refund receiver amount)
  | reclaimAnswer {i index : ℕ} {reply : Reply} {a : AccountId} {p : PendingReclaim}
      {allowlist : List AccountId} {answers answers' : List (Option PromiseResult)}
      (hfl : c.flights.get i = some (.reclaimQueries a p allowlist answers)) :
      Arises c (.answer i index reply) i (.reclaimQueries a p allowlist answers')
  | buyAnswer {i index : ℕ} {reply : Reply} {a : AccountId} {b : PendingBuy}
      {allowlist : List AccountId} {answers answers' : List (Option PromiseResult)}
      (hfl : c.flights.get i = some (.buyQueries a b allowlist answers)) :
      Arises c (.answer i index reply) i (.buyQueries a b allowlist answers')
  | sweepAnswer {i index : ℕ} {reply : Reply} {fl : Flight} (h : fl.isSweep = true) :
      Arises c (.answer i index reply) i fl

/-- A flight after a move was there before, or it arises from the move. -/
theorem Move.arises (hmove : c.Move l c') {i : ℕ} {fl' : Flight}
    (hget : c'.flights.get i = some fl') : c.flights.get i = some fl' ∨ c.Arises l i fl' := by
  cases hmove with
  | accepted hcall hbound =>
    rcases get_accept hget with ⟨p, rfl, hp, rfl⟩ | hget
    · exact .inr (.opened hcall hbound hp)
    · exact .inl hget
  | settled hfl hcallback ho =>
    rcases get_settle hget with ⟨p, rfl, hp, rfl⟩ | ⟨-, hget⟩
    · exact .inr (.handed hfl ho hp)
    · exact .inl hget
  | panicked hfl _ he =>
    rcases LookupMap.get_of_get_insert hget with ⟨rfl, rfl⟩ | ⟨-, hget⟩
    · exact .inr (.panicked hfl he)
    · exact .inl hget
  | advanced hfl _ _ hadvance =>
    rcases (advanced_of_advance hadvance).get hget with
      ⟨rfl, back, hnext⟩ | ⟨-, hget⟩ | ⟨-, -, _, _, rfl⟩
    · exact .inr (.next hfl hadvance hnext hget)
    · exact .inl hget
    · exact .inr .refund
  | answered hfl hanswer =>
    cases hanswer with
    | reclaim =>
      rcases LookupMap.get_of_get_insert hget with ⟨rfl, rfl⟩ | ⟨-, hget⟩
      · exact .inr (.reclaimAnswer hfl)
      · exact .inl hget
    | buy =>
      rcases LookupMap.get_of_get_insert hget with ⟨rfl, rfl⟩ | ⟨-, hget⟩
      · exact .inr (.buyAnswer hfl)
      · exact .inl hget
    | sweep _ h' =>
      rcases LookupMap.get_of_get_insert hget with ⟨rfl, rfl⟩ | ⟨-, hget⟩
      · exact .inr (.sweepAnswer h')
      · exact .inl hget
  | _ => exact .inl hget

/-- What holds of every flight that arises next to flights it holds of holds of every flight. -/
theorem Reached.flight {g : Genesis} (h : c.Reached g) {P : Flight → Prop}
    (hkeep : ∀ (c : Chain) (l : Label) (i : ℕ) (fl : Flight),
      (∀ id fl, c.flights.get id = some fl → P fl) → c.Arises l i fl → P fl)
    {id : ℕ} {fl : Flight} (hget : c.flights.get id = some fl) : P fl := by
  let I (c : Chain) : Prop := ∀ id fl, c.flights.get id = some fl → P fl
  refine h.invariant (I := I) ?_ ?_ id fl hget
  · intro id fl hget
    cases hget
  · intro c l c' hI hstep i fl hget
    rcases (move_of_step hstep).arises hget with hold | harises
    · exact hI _ _ hold
    · exact hkeep c l i fl hI harises

theorem Reached.freshIds {g : Genesis} (h : c.Reached g) : c.FreshIds := by
  refine h.invariant (I := FreshIds) ?_ fun s l s' hI hstep => (move_of_step hstep).freshIds hI
  intro id fl hget
  cases hget

/-- What a chain in flight carries it carried before the move, or the move is
the call that opened it. -/
theorem Move.carried {α : Type} {f : Flight → Option α} (hf : Flight.Carried f)
    (hmove : c.Move l c') {i : ℕ} {fl' : Flight} {x : α}
    (hget : c'.flights.get i = some fl') (hx : f fl' = some x) :
    (∃ fl, c.flights.get i = some fl ∧ f fl = some x) ∨
      ∃ predecessor deposit reserve op o p, l = .call predecessor deposit reserve op ∧
        i = c.nextId ∧ c.callOutcome predecessor deposit reserve op = some o ∧
        c.nativeTotal + deposit < u128Max ∧ o.promise = some p ∧ fl' = p.flight := by
  rcases hmove.arises hget with hold | harises
  · exact .inl ⟨_, hold, hx⟩
  cases harises with
  | opened hcall hbound hp => exact .inr ⟨_, _, _, _, _, _, rfl, rfl, hcall, hbound, hp, rfl⟩
  | handed hfl ho hp => exact .inl ⟨_, hfl, hf.callback ho hp hx⟩
  | panicked hfl => exact .inl ⟨_, hfl, hf.panicked hx⟩
  | next hfl _ hnext => exact .inl ⟨_, hfl, hf.next hnext hx⟩
  | refund => rw [hf.refund] at hx; cases hx
  | reclaimAnswer hfl => exact .inl ⟨_, hfl, hf.reclaimAnswer.trans hx⟩
  | buyAnswer hfl => exact .inl ⟨_, hfl, hf.buyAnswer.trans hx⟩
  | sweepAnswer h => rw [hf.sweep h] at hx; cases hx

end Chain

/-! ## Data in flight -/

namespace Chain

variable {α : Type} {f : Flight → Option α}

/-- A chain in flight carries `x`. -/
def InFlight (c : Chain) (f : Flight → Option α) (x : α) : Prop :=
  ∃ id fl, c.flights.get id = some fl ∧ f fl = some x

theorem forall_inFlight_iff {c : Chain} {P : α → Prop} [DecidablePred P] :
    (∀ x, c.InFlight f x → P x) ↔
      ∀ id ∈ c.flights.keys, ((c.flights.get id).bind f).all (fun x => P x) = true := by
  constructor
  · intro h id _
    cases hx : (c.flights.get id).bind f with
    | none => rfl
    | some x =>
      obtain ⟨fl, hfl, hfx⟩ := Option.bind_eq_some_iff.mp hx
      simpa using h x ⟨id, fl, hfl, hfx⟩
  · rintro h x ⟨id, fl, hfl, hfx⟩
    have hid : id ∈ c.flights.keys := (c.flights.mem_keys id).mpr (by rw [hfl]; rfl)
    simpa [hfl, hfx] using h id hid

instance (c : Chain) (P : α → Prop) [DecidablePred P] : Decidable (∀ x, c.InFlight f x → P x) :=
  decidable_of_iff _ forall_inFlight_iff.symm

end Chain

/-! ## The account a receipt goes to -/

/-- A receipt for a locker goes to the account of the key in its callback. -/
def Flight.Aimed : Flight → Prop
  | .finalizeCall a p | .deleteAccount a p _ => a.chars = p.key
  | .transferCall a b => a.chars = b.key
  | _ => True

theorem Accepted.aimed {env : Env} {r : TlaRegistry} {op : Op} {o : Outcome}
    (h : Accepted env r op o) {p : Promise} (hp : o.promise = some p) : p.flight.Aimed := by
  cases h with
  | reclaimFinalize _ haccount =>
    cases hp
    split
    · exact haccount
    · trivial
  | buySubAccount _ _ _ _ haccount =>
    cases hp
    split
    · exact haccount
    · trivial
  | resale _ hresale =>
    cases hp
    cases p <;> trivial
  | _ => cases hp <;> trivial

theorem Settled.aimed {r : TlaRegistry} {fl : Flight} {o : Outcome} (h : Settled r fl o)
    {p : Promise} (hp : o.promise = some p) : p.flight.Aimed := by
  cases h with
  | reclaimCleared _ _ haccount => cases hp; exact haccount
  | saleCleared _ _ haccount => cases hp; exact haccount
  | _ => cases hp

theorem Flight.isSweep_aimed {fl : Flight} (h : fl.isSweep = true) : fl.Aimed := by
  cases fl <;> trivial

theorem Flight.Next.aimed {self : AccountId} {fl fl' : Flight} {back : Option (AccountId × ℕ)}
    (hnext : fl.Next self (some fl') back) (h : fl.Aimed) : fl'.Aimed := by
  cases hnext with
  | finalizeAccepted => exact h
  | sweep _ h' => exact isSweep_aimed h'
  | _ => trivial

theorem Chain.Reached.aimed {g : Genesis} {c : Chain} (h : c.Reached g) {id : ℕ} {fl : Flight}
    (hget : c.flights.get id = some fl) : fl.Aimed := by
  refine h.flight (fun c l i fl hI harises => ?_) hget
  cases harises with
  | opened hcall _ hp => exact (accepted_of_callOutcome hcall).2.aimed hp
  | handed _ ho hp => exact ho.aimed hp
  | next hfl _ hnext => exact hnext.aimed (hI _ _ hfl)
  | sweepAnswer h => exact Flight.isSweep_aimed h
  | _ => trivial

/-! ## Sums over the chains in flight -/

namespace Chain

def sumFlights (c : Chain) (w : Flight → ℕ) : ℕ := c.flights.sum fun _ fl => w fl

variable {c c' : Chain} {id : ℕ} {fl : Flight} (w : Flight → ℕ)

theorem FreshIds.get_nextId (h : c.FreshIds) : c.flights.get c.nextId = none := by
  cases hget : c.flights.get c.nextId with
  | none => rfl
  | some fl => exact absurd (h _ _ hget) (Nat.lt_irrefl _)

theorem sum_nextFlights (hfl : c.flights.get id = some fl) (fl' : Option Flight) :
    ((c.nextFlights id fl').sum fun _ f => w f) + w fl = c.sumFlights w + fl'.elim 0 w := by
  cases fl' with
  | none =>
    have := c.flights.sum_remove (fun _ f => w f) id
    rwa [LookupMap.weight_some hfl] at this
  | some fl' =>
    have := c.flights.sum_insert (fun _ f => w f) id fl'
    rwa [LookupMap.weight_some hfl] at this

theorem sumFlights_setFlight (hfl : c.flights.get id = some fl) (fl' : Flight) :
    (c.setFlight id fl').sumFlights w + w fl = c.sumFlights w + w fl' :=
  sum_nextFlights w hfl (some fl')

/-- A chain that goes on, or ends, while a failed receipt sends its deposit back. -/
theorem sum_nextFlights_insert (hfresh : c.FreshIds) (hfl : c.flights.get id = some fl)
    (fl' : Option Flight) (back : Flight) :
    (((c.nextFlights id fl').insert c.nextId back).sum fun _ f => w f) + w fl =
      c.sumFlights w + fl'.elim 0 w + w back := by
  have hnext := sum_nextFlights w hfl fl'
  -- The id of the refund is in use neither before nor after the chain goes on.
  have hnew : (c.nextFlights id fl').get c.nextId = none := by
    cases hget : (c.nextFlights id fl').get c.nextId with
    | none => rfl
    | some f =>
      rcases get_nextFlights hget with ⟨hi, -⟩ | ⟨-, hget⟩
      · exact absurd (hfresh _ _ hfl) (by omega)
      · rw [hfresh.get_nextId] at hget; cases hget
  have hsend := (c.nextFlights id fl').sum_insert (fun _ f => w f) c.nextId back
  rw [LookupMap.weight_none hnew] at hsend
  omega

theorem sumFlights_send (hfresh : c.FreshIds) (hfl : c.flights.get id = some fl)
    (fl' back : Flight) :
    ((c.setFlight id fl').send back).sumFlights w + w fl = c.sumFlights w + w fl' + w back :=
  sum_nextFlights_insert w hfresh hfl (some fl') back

theorem sumFlights_accept (hfresh : c.FreshIds) (deposit : ℕ) (o : Outcome) :
    (c.accept deposit o).sumFlights w = c.sumFlights w + o.promise.elim 0 fun p => w p.flight := by
  unfold sumFlights accept
  cases o.promise with
  | none => rfl
  | some p =>
    have := c.flights.sum_insert (fun _ f => w f) c.nextId p.flight
    rwa [LookupMap.weight_none hfresh.get_nextId] at this

theorem sumFlights_settle (hfl : c.flights.get id = some fl) (o : Outcome) :
    (c.settle id o).sumFlights w + w fl =
      c.sumFlights w + o.promise.elim 0 fun p => w p.flight := by
  have hnext := sum_nextFlights w hfl (o.promise.map Promise.flight)
  unfold sumFlights settle
  cases hp : o.promise with
  | none => rw [hp] at hnext; exact hnext
  | some p => rw [hp] at hnext; exact hnext

/-- The weights after a receipt outside the registry. -/
theorem Advanced.sumFlights (h : c.Advanced id fl c') (hfresh : c.FreshIds)
    (hfl : c.flights.get id = some fl) :
    ∃ fl' back, fl.Next c.self fl' back ∧ ∀ v : Flight → ℕ,
      c'.sumFlights v + v fl =
        c.sumFlights v + fl'.elim 0 v + back.elim 0 fun b => v (.refund b.1 b.2) := by
  obtain ⟨next, back, hnext, -, hflights⟩ := h.flights
  refine ⟨next, back, hnext, fun v => ?_⟩
  unfold Chain.sumFlights
  rw [hflights]
  cases back with
  | none => exact sum_nextFlights v hfl next
  | some b => exact sum_nextFlights_insert v hfresh hfl next (.refund b.1 b.2)

/-- A receipt outside the registry moves no weight when neither stage has any. -/
theorem Advanced.sumFlights_eq (h : c.Advanced id fl c') (hfresh : c.FreshIds)
    (hfl : c.flights.get id = some fl) (hw : w fl = 0)
    (hnext : ∀ fl' back, fl.Next c.self (some fl') back → w fl' = 0)
    (hrefund : ∀ receiver amount, w (.refund receiver amount) = 0) :
    c'.sumFlights w = c.sumFlights w := by
  obtain ⟨next, back, hn, hsum⟩ := h.sumFlights hfresh hfl
  have hsum := hsum w
  have hzero : next.elim 0 w = 0 := by
    cases next with
    | none => rfl
    | some fl' => exact hnext fl' back hn
  have hback : (back.elim 0 fun b => w (.refund b.1 b.2)) = 0 := by
    cases back with
    | none => rfl
    | some b => exact hrefund b.1 b.2
  omega

/-- An answer moves no weight that does not look at answers. -/
theorem Answered.sumFlights_eq (h : c.Answered id fl c') (hfl : c.flights.get id = some fl)
    (hsweep : ∀ fl, fl.isSweep = true → w fl = 0)
    (hreclaim : ∀ a p allowlist answers answers',
      w (.reclaimQueries a p allowlist answers) = w (.reclaimQueries a p allowlist answers'))
    (hbuy : ∀ a b allowlist answers answers',
      w (.buyQueries a b allowlist answers) = w (.buyQueries a b allowlist answers')) :
    c'.sumFlights w = c.sumFlights w := by
  have hset {fl' : Flight} (heq : w fl' = w fl) :
      (c.setFlight id fl').sumFlights w = c.sumFlights w := by
    have hsum := sumFlights_setFlight w hfl fl'
    omega
  cases h with
  | reclaim => exact hset (hreclaim _ _ _ _ _)
  | buy => exact hset (hbuy _ _ _ _ _)
  | sweep h h' => exact hset ((hsweep _ h').trans (hsweep _ h).symm)

end Chain

/-! ## What a chain in flight is about -/

/-- `f` reads the same data at every stage of a chain, until the chain ends with a callback. -/
structure Flight.Kept {α : Type} (f : Flight → Option α) : Prop where
  next : ∀ {self : AccountId} {fl fl' : Flight} {back : Option (AccountId × ℕ)},
    fl.Next self (some fl') back → f fl' = f fl
  ended : ∀ {self : AccountId} {fl : Flight} {back : Option (AccountId × ℕ)},
    fl.Next self none back → f fl = none
  panicked : ∀ {r : TlaRegistry} {fl : Flight} {e : ContractError},
    fl.callback r = some (.error e) → f (.panicked fl) = f fl
  reclaimAnswer : ∀ {a p allowlist answers answers'},
    f (.reclaimQueries a p allowlist answers) = f (.reclaimQueries a p allowlist answers')
  buyAnswer : ∀ {a b allowlist answers answers'},
    f (.buyQueries a b allowlist answers) = f (.buyQueries a b allowlist answers')
  sweep : ∀ {fl : Flight}, fl.isSweep = true → f fl = none
  refund : ∀ {receiver amount}, f (.refund receiver amount) = none

namespace Chain

/-- What the chain with this id is about. -/
def about {α : Type} (c : Chain) (f : Flight → Option α) (id : ℕ) : Option α :=
  (c.flights.get id).bind f

variable {α : Type} {f : Flight → Option α} {c c' : Chain} {id i : ℕ} {fl fl' : Flight}

theorem about_of_get (hfl : c.flights.get id = some fl) : c.about f id = f fl := by
  simp [about, hfl]

theorem about_congr (h : c'.flights.get i = c.flights.get i) : c'.about f i = c.about f i := by
  unfold about
  rw [h]

theorem FreshIds.about_eq_none (h : c.FreshIds) (hi : c.nextId ≤ i) : c.about f i = none := by
  cases hget : c.flights.get i with
  | none => simp [about, hget]
  | some fl => exact absurd (h _ _ hget) (Nat.not_lt.mpr hi)

/-- The other chains are about what they were about. -/
theorem about_setFlight (hfl : c.flights.get id = some fl) (h : f fl' = f fl) (i : ℕ) :
    (c.setFlight id fl').about f i = c.about f i := by
  by_cases hi : i = id
  · subst hi
    rw [about_of_get hfl, ← h]
    exact about_of_get (LookupMap.get_insert_self _ _ _)
  · exact about_congr (LookupMap.get_insert_ne hi)

theorem about_accept_ne {deposit : ℕ} {o : Outcome} (hi : i ≠ c.nextId) :
    (c.accept deposit o).about f i = c.about f i := by
  refine about_congr ?_
  cases hp : o.promise with
  | none => simp [accept, hp]
  | some p => simp [accept, hp, hi]

theorem about_accept_self {deposit : ℕ} {o : Outcome} {p : Promise} (hp : o.promise = some p) :
    (c.accept deposit o).about f c.nextId = f p.flight := by
  refine about_of_get ?_
  simp [accept, hp]

theorem about_accept (hfresh : c.FreshIds) {deposit : ℕ} {o : Outcome}
    (h : ∀ p, o.promise = some p → f p.flight = none) (i : ℕ) :
    (c.accept deposit o).about f i = c.about f i := by
  by_cases hi : i = c.nextId
  · subst hi
    rw [hfresh.about_eq_none (Nat.le_refl _)]
    cases hp : o.promise with
    | none => simp [about, accept, hp, hfresh.get_nextId]
    | some p => rw [about_accept_self hp, h p hp]
  · exact about_accept_ne hi

theorem about_settle_ne {o : Outcome} (hi : i ≠ id) :
    (c.settle id o).about f i = c.about f i := by
  refine about_congr ?_
  cases hp : o.promise with
  | none => simp [settle, hp, hi]
  | some p => simp [settle, hp, hi]

theorem about_settle_self (o : Outcome) :
    (c.settle id o).about f id = o.promise.bind fun p => f p.flight := by
  cases hp : o.promise with
  | none => simp [about, settle, hp]
  | some p => simp [about, settle, hp]

/-- A callback of a chain about something else. -/
theorem about_settle (hfl : c.flights.get id = some fl) {o : Outcome}
    (h : f fl = o.promise.bind fun p => f p.flight) (i : ℕ) :
    (c.settle id o).about f i = c.about f i := by
  by_cases hi : i = id
  · subst hi
    rw [about_settle_self, about_of_get hfl, h]
  · exact about_settle_ne hi

/-- A receipt outside the registry ends no chain that is about anything. -/
theorem Advanced.about (h : c.Advanced id fl c') (hf : Flight.Kept f) (hfresh : c.FreshIds)
    (hfl : c.flights.get id = some fl) (i : ℕ) : c'.about f i = c.about f i := by
  obtain ⟨next, back, hnext, -, hflights⟩ := h.flights
  have hstay : ∀ i, ((c.nextFlights id next).get i).bind f = c.about f i := by
    intro i
    cases next with
    | none =>
      by_cases hi : i = id
      · subst hi
        rw [about_of_get hfl, hf.ended hnext]
        simp [nextFlights]
      · simp [nextFlights, hi, Chain.about]
    | some fl' => exact about_setFlight hfl (hf.next hnext) i
  unfold Chain.about at hstay ⊢
  rw [hflights]
  cases back with
  | none => exact hstay i
  | some b =>
    -- The refund of a failed receipt takes a fresh id and is about nothing.
    by_cases hi : i = c.nextId
    · subst hi
      rw [hfresh.get_nextId]
      simp [hf.refund]
    · simp only [Option.elim_some, LookupMap.get_insert_ne hi]
      exact hstay i

theorem Answered.about (h : c.Answered id fl c') (hf : Flight.Kept f)
    (hfl : c.flights.get id = some fl) (i : ℕ) : c'.about f i = c.about f i := by
  cases h with
  | reclaim => exact about_setFlight hfl hf.reclaimAnswer i
  | buy => exact about_setFlight hfl hf.buyAnswer i
  | sweep hs hs' => exact about_setFlight hfl ((hf.sweep hs').trans (hf.sweep hs).symm) i

end Chain

namespace Flight

/-- The callbacks of a sale do not panic. -/
theorem selling_of_panic {r : TlaRegistry} {fl : Flight} {e : ContractError}
    (h : fl.callback r = some (.error e)) : fl.selling = none := by
  cases fl with
  | sold b ok =>
    have h := Option.some.inj h
    unfold TlaRegistry.onSubAccountSold at h
    dsimp only at h
    split at h
    · split at h <;> cases h
    · cases h
  | buyQueries a b allowlist answers =>
    obtain ⟨results, -, h⟩ := Option.map_eq_some_iff.mp h
    unfold TlaRegistry.onBuyBalancesChecked at h
    dsimp only at h
    split at h
    · cases h
    · split at h <;> cases h
  | transferCall => cases h
  | _ => rfl

theorem selling_kept : Kept selling where
  next := by
    intro self fl fl' back hnext
    cases hnext with
    | sweep hs hs' => rw [isSweep_selling hs, isSweep_selling hs']
    | _ => rfl
  ended := by
    intro self fl back hnext
    cases hnext with
    | sweepEnded hs => exact isSweep_selling hs
    | _ => rfl
  panicked := by
    intro r fl e he
    rw [selling_of_panic he]
    rfl
  reclaimAnswer := rfl
  buyAnswer := rfl
  sweep := isSweep_selling
  refund := rfl

theorem renting_kept : Kept renting where
  next := by
    intro self fl fl' back hnext
    cases hnext with
    | sweep hs hs' => rw [isSweep_renting hs, isSweep_renting hs']
    | _ => rfl
  ended := by
    intro self fl back hnext
    cases hnext with
    | sweepEnded hs => exact isSweep_renting hs
    | _ => rfl
  panicked := by
    intro r fl e he
    -- A rental panics in its last callback only, and the record of it still names it.
    cases fl <;> first | rfl | cases he
  reclaimAnswer := rfl
  buyAnswer := rfl
  sweep := isSweep_renting
  refund := rfl

end Flight

/-! ## The calls that open a chain -/

section

variable {env : Env} {r : TlaRegistry} {op : Op} {o : Outcome} {promise : Promise}

/-- Only `rent_sub_account` opens a rental. -/
theorem Accepted.rent_of_renting (h : Accepted env r op o) {p : PendingRent}
    (hpromise : o.promise = some promise) (hrenting : promise.flight.renting = some p) :
    ∃ mainWallet tla, op = .rentSubAccount p.tlaId p.name p.ownerKey mainWallet ∧
      r.tlas.get p.tlaId = some tla ∧ p.rent = calculateRent tla p.tlaId p.name r.feeConfig ∧
      p.creationDeposit = r.feeConfig.accountCreationDeposit ∧ p.payer = env.predecessor ∧
      p.attached = env.attachedDeposit ∧
      satAdd u128Max p.rent p.creationDeposit ≤ p.attached := by
  cases h with
  | rentSubAccount _ _ _ _ htla _ _ hrent hpaid =>
    cases hpromise
    cases hrenting
    exact ⟨_, _, rfl, htla, hrent, rfl, rfl, rfl, hpaid⟩
  | resale _ hresale =>
    cases hpromise
    cases promise with
    | createSubAccount => cases hresale
    | _ => cases hrenting
  | reclaimFinalize =>
    cases hpromise
    split at hrenting <;> cases hrenting
  | buySubAccount =>
    cases hpromise
    split at hrenting <;> cases hrenting
  | _ => cases hpromise <;> cases hrenting

/-- Only `buy_sub_account` opens a sale. -/
theorem Accepted.buy_of_selling (h : Accepted env r op o) {b : PendingBuy}
    (hpromise : o.promise = some promise) (hselling : promise.flight.selling = some b) :
    ∃ seller, op = .buySubAccount b.tlaId b.name b.newOwnerKey ∧ b.buyer = env.predecessor ∧
      b.deposit = env.attachedDeposit ∧ r.assertSaleIdle b.key = .ok () ∧
      r.assertSellable env b.key b.tlaId = .ok seller ∧
      Locked r b.key b.buyer b.deposit o.registry.listings o.registry.acceptedOffers b.price := by
  cases h with
  | buySubAccount _ hidle hsell hlock =>
    cases hpromise
    split at hselling
    · cases hselling
      exact ⟨_, rfl, rfl, rfl, hidle, hsell, hlock⟩
    · cases hselling
      exact ⟨_, rfl, rfl, rfl, hidle, hsell, hlock⟩
  | resale _ hresale =>
    cases hpromise
    cases promise with
    | checkBuyBalances | settleTransfer => cases hresale
    | _ => cases hselling
  | reclaimFinalize =>
    cases hpromise
    split at hselling <;> cases hselling
  | _ => cases hpromise <;> cases hselling

theorem Locked.price_le {key : Str} {buyer : AccountId} {deposit price : ℕ}
    {listings : LookupMap Str Listing} {acceptedOffers : LookupMap Str AcceptedOffer}
    (h : Locked r key buyer deposit listings acceptedOffers price) : price ≤ deposit := by
  cases h with
  | offer _ _ hpaid => exact hpaid
  | listing _ _ hpaid => exact hpaid

end

/-! ## What a rental and a sale in flight are worth -/

/-- What every call gives the chain it opens, every chain in flight has. -/
theorem Chain.Reached.of_opened {g : Genesis} {c : Chain} (h : c.Reached g) {α : Type}
    {f : Flight → Option α} (hf : Flight.Carried f) {P : α → Prop}
    (hopen : ∀ (env : Env) (r : TlaRegistry) (op : Op) (o : Outcome) (promise : Promise) (x : α),
      env.attachedDeposit < u128Max → Accepted env r op o → o.promise = some promise →
        f promise.flight = some x → P x)
    {id : ℕ} {fl : Flight} {x : α} (hget : c.flights.get id = some fl) (hx : f fl = some x) :
    P x := by
  let I (c : Chain) : Prop := ∀ id fl x, c.flights.get id = some fl → f fl = some x → P x
  refine h.invariant (I := I) ?_ ?_ id fl x hget hx
  · intro id fl x hget
    cases hget
  · intro c l c' hI hstep id fl x hget hx
    rcases (move_of_step hstep).carried hf hget hx with
        ⟨fl₀, hget₀, hx₀⟩ | ⟨predecessor, deposit, reserve, op, o, promise, -, -, hcall, hbound,
          hpromise, rfl⟩
    · exact hI _ _ _ hget₀ hx₀
    · exact hopen _ _ _ _ _ _ (show deposit < u128Max by omega)
        (accepted_of_callOutcome hcall).2 hpromise hx

/-- The deposit of a rental in flight covers the rent and what was forwarded. -/
theorem Chain.Reached.covered {g : Genesis} {c : Chain} (h : c.Reached g) {id : ℕ} {fl : Flight}
    {p : PendingRent} (hget : c.flights.get id = some fl) (hp : fl.renting = some p) :
    p.rent + p.creationDeposit ≤ p.attached ∧ p.attached < u128Max := by
  refine h.of_opened Flight.renting_carried
    (P := fun p => p.rent + p.creationDeposit ≤ p.attached ∧ p.attached < u128Max) ?_ hget hp
  intro env r op o promise p hbound ho hpromise hp
  obtain ⟨-, -, -, -, -, -, -, hattached, hpaid⟩ := ho.rent_of_renting hpromise hp
  have hlt : p.attached < u128Max := by omega
  exact ⟨add_le_of_satAdd_le hpaid hlt, hlt⟩

theorem Chain.Reached.price_le {g : Genesis} {c : Chain} (h : c.Reached g) {id : ℕ} {fl : Flight}
    {b : PendingBuy} (hget : c.flights.get id = some fl) (hb : fl.selling = some b) :
    b.price ≤ b.deposit := by
  refine h.of_opened Flight.selling_carried (P := fun b => b.price ≤ b.deposit) ?_ hget hb
  intro env r op o promise b hbound ho hpromise hb
  obtain ⟨-, -, -, -, -, -, hlock⟩ := ho.buy_of_selling hpromise hb
  exact hlock.price_le

/-! ## The call a chain goes back to -/

/-- The outcome of the recorded call. -/
def CallRecord.outcome (rec : CallRecord) : Option Outcome :=
  rec.before.callOutcome rec.predecessor rec.deposit rec.reserve rec.op

theorem System.opened_of_step {s s' : System} {l : Label} (h : s.step l = some s') {i : ℕ}
    (hi : i < s.chain.nextId) : s'.history.opened i = s.history.opened i := by
  cases System.moved_of_step h with
  | accepted => exact Function.update_of_ne (Nat.ne_of_lt hi) _ _
  | panicked | advanced => rw [History.recordReceipt_eq]
  | _ => rfl

/-- Only an accepted `rent_sub_account` writes the record of rentals. -/
theorem System.rentals_of_step {s s' : System} {l : Label} (h : s.step l = some s') :
    (s'.history.rentals = s.history.rentals ∧
      ∀ renter deposit reserve tlaId name ownerKey mainWallet,
        l = .call renter deposit reserve (.rentSubAccount tlaId name ownerKey mainWallet) →
          s.chain.callOutcome renter deposit reserve
            (.rentSubAccount tlaId name ownerKey mainWallet) = none) ∨
      ∃ renter deposit reserve tlaId name ownerKey mainWallet o,
        l = .call renter deposit reserve (.rentSubAccount tlaId name ownerKey mainWallet) ∧
        s.chain.callOutcome renter deposit reserve
          (.rentSubAccount tlaId name ownerKey mainWallet) = some o ∧
        s'.history.rentals =
          Function.update s.history.rentals (subAccountKey tlaId name) (some s.chain.nextId) := by
  cases System.moved_of_step h with
  | rejected hcall =>
    refine .inl ⟨rfl, ?_⟩
    rintro _ _ _ _ _ _ _ ⟨⟩
    exact hcall
  | @accepted _ _ _ op o hcall =>
    cases op with
    | rentSubAccount tlaId name ownerKey mainWallet =>
      exact .inr ⟨_, _, _, _, _, _, _, o, rfl, hcall, rfl⟩
    | _ =>
      refine .inl ⟨rfl, ?_⟩
      rintro _ _ _ _ _ _ _ ⟨⟩
  | panicked | advanced =>
    refine .inl ⟨?_, fun _ _ _ _ _ _ _ hl => by cases hl⟩
    rw [History.recordReceipt_eq]
  | _ => exact .inl ⟨rfl, fun _ _ _ _ _ _ _ hl => by cases hl⟩

/-- A rental has the id of an earlier call. -/
theorem System.Reached.rental_lt {g : Genesis} {s : System} (h : s.Reached g) {key : Str} {i : ℕ}
    (hi : s.history.rentals key = some i) : i < s.chain.nextId := by
  let I (s : System) : Prop := ∀ key i, s.history.rentals key = some i → i < s.chain.nextId
  refine Reachable.invariant (I := I) ?_ ?_ h key i hi
  · intro key i hi
    cases hi
  · intro s l s' hI hstep key i hi
    rcases System.rentals_of_step hstep with
        ⟨hsame, -⟩ | ⟨_, _, _, tlaId, name, _, _, o, rfl, hcall, hupdate⟩
    · rw [hsame] at hi
      exact Nat.lt_of_lt_of_le (hI key i hi)
        (Chain.move_of_step (System.step_chain hstep)).nextId_le
    · have hnext : s'.chain.nextId = s.chain.nextId + 1 := by
        rw [System.eq_of_accepted hstep hcall]
        rfl
      rw [hupdate, Function.update_apply] at hi
      rw [hnext]
      split at hi
      · cases hi; exact Nat.lt_succ_self _
      · exact Nat.lt_succ_of_lt (hI key i hi)

/-- A rental is the rental of one key. -/
theorem System.Reached.rental_inj {g : Genesis} {s : System} (h : s.Reached g) {key key' : Str}
    {i : ℕ} (hi : s.history.rentals key = some i) (hi' : s.history.rentals key' = some i) :
    key = key' := by
  obtain ⟨tr, hrun⟩ := h
  induction hrun generalizing key key' i with
  | nil => cases hi
  | @snoc tr s s' l hrun hstep ih =>
    rcases System.rentals_of_step hstep with
        ⟨hsame, -⟩ | ⟨_, _, _, tlaId, name, _, _, o, rfl, hcall, hupdate⟩
    · rw [hsame] at hi hi'
      exact ih hi hi'
    -- The new rental has a fresh id.
    · have hlt : ∀ k, s.history.rentals k ≠ some s.chain.nextId := fun k hk =>
        Nat.lt_irrefl _ (System.Reached.rental_lt ⟨tr, hrun⟩ hk)
      rw [hupdate, Function.update_apply] at hi hi'
      split at hi <;> split at hi'
      · exact (‹key = _›).trans (‹key' = _›).symm
      · cases hi; exact absurd hi' (hlt _)
      · cases hi'; exact absurd hi (hlt _)
      · exact ih hi hi'

/-- The accepted call behind a chain in flight. -/
theorem System.Reached.opened {g : Genesis} {s : System} (h : s.Reached g) {α : Type}
    {f : Flight → Option α} (hf : Flight.Carried f) {i : ℕ} {fl : Flight} {x : α}
    (hget : s.chain.flights.get i = some fl) (hx : f fl = some x) :
    ∃ rec o p, s.history.opened i = some rec ∧ rec.outcome = some o ∧
      rec.before.nativeTotal + rec.deposit < u128Max ∧ o.promise = some p ∧
        f p.flight = some x := by
  obtain ⟨tr, hrun⟩ := h
  induction hrun generalizing fl with
  | nil => cases hget
  | @snoc tr s s' l hrun hstep ih =>
    have hmove := Chain.move_of_step (System.step_chain hstep)
    rcases hmove.carried hf hget hx with ⟨fl₀, hget₀, hx₀⟩ |
        ⟨predecessor, deposit, reserve, op, o, p, rfl, rfl, hcall, hbound, hp, rfl⟩
    · have hfresh := (System.Reached.chain ⟨tr, hrun⟩).freshIds _ _ hget₀
      rw [System.opened_of_step hstep hfresh]
      exact ih hget₀ hx₀
    -- The call that opens the chain is recorded under the id it takes up.
    · refine ⟨⟨s.chain, s.history.rentals, predecessor, deposit, reserve, op⟩, o, p, ?_, hcall,
        hbound, hp, hx⟩
      rw [System.eq_of_accepted hstep hcall]
      exact Function.update_self _ _ _

end HosTla
