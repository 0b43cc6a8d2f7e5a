-- SUMMARY: The resale locker releases one key, once, however many attempts it takes.
import HosTla.Chain.History
import HosTla.ResaleLocker

/-!
# Resales

A failed `AddKey` reopens the resale locker, so a run may hold any number of attempts.
While an attempt is under way the locker is settling and takes no other one. Once a key is
added, what is left of that attempt can only settle the locker.
-/

namespace HosTla

open Foundation

/-- A step in which the locker accepts a call and sends itself an `AddKey`. -/
structure SendsKey (id : ℕ) (key : PublicKey) (t : Transition ResaleAccount ResaleLabel) :
    Prop where
  before : t.before.flights.get id = none
  after : t.after.flights.get id = some (.addKey key)

/-- A step in which the account gets a key. -/
def GetsKey (key : PublicKey) (t : Transition ResaleAccount ResaleLabel) : Prop :=
  t.after.accessKeys = key :: t.before.accessKeys

/-- The callback of an `AddKey` that succeeded has run. -/
def Settles (t : Transition ResaleAccount ResaleLabel) : Prop :=
  ∃ id key, t.label = .resolve id true ∧
    t.before.flights.get id = some (.settleResolved key true)

/-- What the run of a locker promises. -/
structure ReleasesOnce (registry : AccountId) (recoveryKey : PublicKey)
    (accessKeys : List PublicKey) (tr : List (Transition ResaleAccount ResaleLabel))
    (s : ResaleAccount) : Prop where
  /-- At most one key is added. -/
  once : s.accessKeys = accessKeys ∨ ∃ key, s.accessKeys = key :: accessKeys
  /-- A step that changes the keys adds one, -/
  adds : ∀ t ∈ tr, t.after.accessKeys = t.before.accessKeys ∨ ∃ key, GetsKey key t
  /-- which the registry asked for: the key of its `unlock`, or the recovery key. -/
  requested : ∀ tr₁ t tr₂ key, tr = tr₁ ++ t :: tr₂ → GetsKey key t →
    ∃ u ∈ tr₁, ∃ id m, u.label = .call registry m ∧ key = m.key recoveryKey ∧ SendsKey id key u ∧
      t.label = .resolve id true
  /-- After that no `AddKey` is sent and no key is added. -/
  last : ∀ tr₁ t tr₂ key, tr = tr₁ ++ t :: tr₂ → GetsKey key t →
    ∀ u ∈ tr₂, u.after.accessKeys = u.before.accessKeys ∧ ∀ id key, ¬ SendsKey id key u
  settled : s.locker.state = .settled ↔ ∃ t ∈ tr, Settles t

namespace ResaleAccount

variable {s s' : ResaleAccount} {l : ResaleLabel}

/-! ## What a step can do -/

inductive Moved (s : ResaleAccount) : ResaleLabel → ResaleAccount → Prop
  | rejected {predecessor : AccountId} {m : ResaleCall} : Moved s (.call predecessor m) s
  | accepted {m : ResaleCall} (hactive : s.locker.state = .active) :
      Moved s (.call s.locker.registry m)
        { s with
          locker := { s.locker with state := .settling }
          flights := s.flights.insert s.nextId (.addKey (m.key s.locker.recoveryKey))
          nextId := s.nextId + 1 }
  | added {id : ℕ} {key : PublicKey} (hfl : s.flights.get id = some (.addKey key)) :
      Moved s (.resolve id true)
        { s.setFlight id (.settleResolved key true) with accessKeys := key :: s.accessKeys }
  | refused {id : ℕ} {ok : Bool} {key : PublicKey} (hfl : s.flights.get id = some (.addKey key)) :
      Moved s (.resolve id ok) (s.setFlight id (.settleResolved key false))
  | resolved {id : ℕ} {key : PublicKey} {added : Bool}
      (hfl : s.flights.get id = some (.settleResolved key added)) :
      Moved s (.resolve id true)
        { s with
          locker := s.locker.onSettleResolved added
          flights := s.flights.remove id }
  | lost {id : ℕ} {key : PublicKey} {added : Bool}
      (hfl : s.flights.get id = some (.settleResolved key added)) :
      Moved s (.resolve id false) { s with flights := s.flights.remove id }

theorem moved_of_step (h : s.step l = some s') : s.Moved l s' := by
  cases l with
  | call predecessor m =>
    cases h
    unfold acceptCall
    split
    · rename_i locker key hrun
      obtain ⟨rfl, hactive, rfl, rfl⟩ := ResaleCall.run_eq_ok.mp hrun
      exact .accepted hactive
    · exact .rejected
  | resolve id ok =>
    obtain ⟨fl, hfl, rfl⟩ := Option.map_eq_some_iff.mp h
    cases fl with
    | addKey key =>
      simp only [resolve]
      split
      · rename_i hif
        obtain ⟨rfl, -⟩ := hif
        exact .added hfl
      · exact .refused hfl
    | settleResolved key added =>
      cases ok with
      | true => exact .resolved hfl
      | false => exact .lost hfl

/-! ## The invariant -/

/-- A key is out: the locker is not active, and no attempt may still add one or reopen it. -/
structure Released (s : ResaleAccount) : Prop where
  inactive : s.locker.state ≠ .active
  spent : ∀ id fl, s.flights.get id = some fl → ∃ key, fl = .settleResolved key true

/-- One attempt at a time, which the locker waits for. -/
structure Latched (registry : AccountId) (recoveryKey : PublicKey) (accessKeys : List PublicKey)
    (s : ResaleAccount) : Prop where
  registry : s.locker.registry = registry
  recoveryKey : s.locker.recoveryKey = recoveryKey
  fresh : ∀ id fl, s.flights.get id = some fl → id < s.nextId
  single : ∀ i j fl fl', s.flights.get i = some fl → s.flights.get j = some fl' → i = j
  waits : ∀ id fl, s.flights.get id = some fl → s.locker.state = .settling
  keys : s.accessKeys = accessKeys ∨ s.Released ∧ ∃ key, s.accessKeys = key :: accessKeys

/-- No later step adds a key, sends an `AddKey` or reopens the locker. -/
theorem Released.step (h : s.Released) (hstep : s.step l = some s') :
    s'.Released ∧ s'.accessKeys = s.accessKeys ∧ ∀ id key, ¬ SendsKey id key ⟨s, l, s'⟩ := by
  have hnot : ∀ id key, s.flights.get id ≠ some (.addKey key) := by
    intro id key hfl
    obtain ⟨_, heq⟩ := h.spent id _ hfl
    cases heq
  have hremoved : ∀ id, (∀ i fl, (s.flights.remove id).get i = some fl →
      ∃ key, fl = .settleResolved key true) ∧
        ∀ i key, ¬ (s.flights.remove id).get i = some (.addKey key) := by
    intro id
    refine ⟨fun i fl hfl => h.spent i fl (LookupMap.get_of_get_remove hfl).2, fun i key hfl => ?_⟩
    exact hnot i key (LookupMap.get_of_get_remove hfl).2
  cases moved_of_step hstep with
  | rejected => exact ⟨h, rfl, fun id key hsends => hnot id key hsends.after⟩
  | accepted hactive => exact absurd hactive h.inactive
  | added hfl => exact absurd hfl (hnot _ _)
  | refused hfl => exact absurd hfl (hnot _ _)
  | @resolved id key added hfl =>
    obtain ⟨_, heq⟩ := h.spent id _ hfl
    cases heq
    refine ⟨⟨?_, (hremoved id).1⟩, rfl, fun i key hsends => (hremoved id).2 i key hsends.after⟩
    simp [ResaleLocker.onSettleResolved]
  | @lost id =>
    exact ⟨⟨h.inactive, (hremoved id).1⟩, rfl,
      fun i key hsends => (hremoved id).2 i key hsends.after⟩

section

variable {registry : AccountId} {recoveryKey : PublicKey} {accessKeys : List PublicKey}

theorem latched_deployed :
    (deployed registry recoveryKey accessKeys).Latched registry recoveryKey accessKeys where
  registry := rfl
  recoveryKey := rfl
  fresh _ _ h := by cases h
  single _ _ _ _ h := by cases h
  waits _ _ h := by cases h
  keys := .inl rfl

/-- The locker is active, so nothing is under way and no key is out. -/
theorem Latched.accepted (hI : s.Latched registry recoveryKey accessKeys)
    (hactive : s.locker.state = .active) (key : PublicKey) :
    Latched registry recoveryKey accessKeys
      { s with
        locker := { s.locker with state := .settling }
        flights := s.flights.insert s.nextId (.addKey key)
        nextId := s.nextId + 1 } := by
  have honly : ∀ i fl, (s.flights.insert s.nextId (.addKey key)).get i = some fl →
      i = s.nextId := by
    intro i fl hfl
    rcases LookupMap.get_of_get_insert hfl with ⟨hi, -⟩ | ⟨-, hfl⟩
    · exact hi
    · have hwaits := hI.waits i fl hfl
      rw [hactive] at hwaits
      cases hwaits
  refine ⟨hI.registry, hI.recoveryKey, ?_, ?_, fun _ _ _ => rfl, .inl ?_⟩
  · intro i fl hfl
    rw [honly i fl hfl]
    exact Nat.lt_succ_self _
  · intro i j fl fl' hi hj
    exact (honly i fl hi).trans (honly j fl' hj).symm
  · exact hI.keys.resolve_right fun hout => hout.1.inactive hactive

/-- The `AddKey` is answered, with a key or without one. -/
theorem Latched.answered (hI : s.Latched registry recoveryKey accessKeys) {id : ℕ}
    {key : PublicKey} (hfl : s.flights.get id = some (.addKey key)) {ok : Bool}
    {keys : List PublicKey} (hkeys : keys = if ok = true then key :: s.accessKeys else s.accessKeys) :
    Latched registry recoveryKey accessKeys
      { s.setFlight id (.settleResolved key ok) with accessKeys := keys } := by
  have honly : ∀ i fl, (s.flights.insert id (.settleResolved key ok)).get i = some fl →
      i = id ∧ fl = .settleResolved key ok := by
    intro i fl hget
    rcases LookupMap.get_of_get_insert hget with hnew | ⟨hi, hget⟩
    · exact hnew
    · exact absurd (hI.single i id _ _ hget hfl) hi
  -- The key of this attempt is the first one.
  have hfirst : s.accessKeys = accessKeys := by
    refine hI.keys.resolve_right fun hout => ?_
    obtain ⟨_, heq⟩ := hout.1.spent id _ hfl
    cases heq
  have hwaits := hI.waits id _ hfl
  refine ⟨hI.registry, hI.recoveryKey, ?_, ?_, fun _ _ _ => hwaits, ?_⟩
  · intro i fl hget
    rw [(honly i fl hget).1]
    exact hI.fresh id _ hfl
  · intro i j fl fl' hi hj
    exact (honly i fl hi).1.trans (honly j fl' hj).1.symm
  · cases ok with
    | false => exact .inl (hkeys.trans hfirst)
    | true =>
      refine .inr ⟨⟨?_, fun i fl hget => ⟨key, (honly i fl hget).2⟩⟩, key, ?_⟩
      · show s.locker.state ≠ .active
        rw [hwaits]
        simp
      · exact hkeys.trans (by rw [if_pos rfl, hfirst])

/-- The attempt is over, whatever its callback did. -/
theorem Latched.ended (hI : s.Latched registry recoveryKey accessKeys) {id : ℕ} {key : PublicKey}
    {added : Bool} (hfl : s.flights.get id = some (.settleResolved key added)) {state : LockState}
    (hstate : added = true → state ≠ .active) :
    Latched registry recoveryKey accessKeys
      { s with
        locker := { s.locker with state := state }
        flights := s.flights.remove id } := by
  have hnone : ∀ i fl, (s.flights.remove id).get i ≠ some fl := by
    intro i fl hget
    obtain ⟨hi, hget⟩ := LookupMap.get_of_get_remove hget
    exact hi (hI.single i id _ _ hget hfl)
  refine ⟨hI.registry, hI.recoveryKey, fun i fl hget => absurd hget (hnone i fl),
    fun i _ fl _ hget => absurd hget (hnone i fl), fun i fl hget => absurd hget (hnone i fl), ?_⟩
  refine hI.keys.imp_right fun ⟨hout, hkey⟩ => ⟨⟨hstate ?_, ?_⟩, hkey⟩
  · obtain ⟨_, heq⟩ := hout.spent id _ hfl
    cases heq
    rfl
  · exact fun i fl hget => absurd hget (hnone i fl)

theorem Latched.step (hI : s.Latched registry recoveryKey accessKeys)
    (hstep : s.step l = some s') : s'.Latched registry recoveryKey accessKeys := by
  cases moved_of_step hstep with
  | rejected => exact hI
  | accepted hactive => exact hI.accepted hactive _
  | added hfl => exact hI.answered hfl rfl
  | refused hfl => exact hI.answered hfl rfl
  | @resolved id key added hfl => exact hI.ended hfl (by cases added <;> simp)
  | @lost id key added hfl =>
    have hactive : added = true → s.locker.state ≠ .active := fun _ => by
      rw [hI.waits id _ hfl]
      simp
    exact hI.ended hfl hactive

/-! ## Runs -/

variable {tr : List (Transition ResaleAccount ResaleLabel)}

theorem latched_of_run
    (hrun : Run ResaleAccount.step (deployed registry recoveryKey accessKeys) tr s) :
    s.Latched registry recoveryKey accessKeys :=
  Reachable.invariant latched_deployed (fun _ _ _ hI hstep => hI.step hstep) ⟨tr, hrun⟩

/-- A step that changes the keys is an `AddKey` that goes through. -/
theorem getsKey_of_step (hI : s.Latched registry recoveryKey accessKeys)
    (hstep : s.step l = some s') {key : PublicKey} (h : s'.accessKeys = key :: s.accessKeys) :
    s'.Released ∧ ∃ id, l = .resolve id true ∧ s.flights.get id = some (.addKey key) := by
  have hI' := hI.step hstep
  have hsame : s'.accessKeys ≠ s.accessKeys := by
    rw [h]
    exact fun heq => absurd (congrArg List.length heq) (by simp)
  cases moved_of_step hstep with
  | @added id key' hfl =>
    cases h
    refine ⟨?_, id, rfl, hfl⟩
    -- Were no key out now, the account would have as many keys as before.
    rcases hI'.keys with hkeys | ⟨hout, -⟩
    · rcases hI.keys with hold | ⟨hout, -⟩
      · exact absurd (hkeys.trans hold.symm) hsame
      · obtain ⟨_, heq⟩ := hout.spent id _ hfl
        cases heq
    · exact hout
  | _ => exact absurd rfl hsame

/-- The `AddKey` of an attempt is sent in a step that accepts a call of the registry. -/
theorem sendsKey_of_step (hI : s.Latched registry recoveryKey accessKeys)
    (hstep : s.step l = some s') {id : ℕ} {key : PublicKey}
    (hbefore : s.flights.get id ≠ some (.addKey key))
    (hafter : s'.flights.get id = some (.addKey key)) :
    ∃ m, l = .call registry m ∧ key = m.key recoveryKey ∧ SendsKey id key ⟨s, l, s'⟩ := by
  cases moved_of_step hstep with
  | rejected => exact absurd hafter hbefore
  | @accepted m hactive =>
    have hsent := hafter
    rcases LookupMap.get_of_get_insert hafter with ⟨rfl, heq⟩ | ⟨-, hget⟩
    · cases heq
      refine ⟨m, by rw [hI.registry], by rw [hI.recoveryKey], ?_, hsent⟩
      cases hnext : s.flights.get s.nextId with
      | none => rfl
      | some fl => exact absurd (hI.fresh _ fl hnext) (Nat.lt_irrefl _)
    · exact absurd hget hbefore
  | added | refused =>
    rcases LookupMap.get_of_get_insert hafter with ⟨-, heq⟩ | ⟨-, hget⟩
    · cases heq
    · exact absurd hget hbefore
  | resolved | lost => exact absurd (LookupMap.get_of_get_remove hafter).2 hbefore

/-- The locker becomes settled in the callback of an `AddKey` that succeeded. -/
theorem settles_of_step (hstep : s.step l = some s') (hbefore : s.locker.state ≠ .settled)
    (hafter : s'.locker.state = .settled) : Settles ⟨s, l, s'⟩ := by
  cases moved_of_step hstep with
  | accepted => cases hafter
  | @resolved id key added hfl =>
    cases added with
    | true => exact ⟨id, key, rfl, hfl⟩
    | false => cases hafter
  | _ => exact absurd hafter hbefore

/-- The locker is settled and nothing is under way. -/
def Closed (s : ResaleAccount) : Prop :=
  s.locker.state = .settled ∧ ∀ id, s.flights.get id = none

/-- A closed locker stays as it is. -/
theorem Closed.step (h : s.Closed) (hstep : s.step l = some s') : s'.Closed := by
  obtain ⟨hsettled, hnone⟩ := h
  cases moved_of_step hstep with
  | rejected => exact ⟨hsettled, hnone⟩
  | accepted hactive => rw [hsettled] at hactive; cases hactive
  | added hget | refused hget | resolved hget | lost hget => rw [hnone] at hget; cases hget

/-- The callback of an `AddKey` that succeeded closes the locker. -/
theorem Latched.closed (hI : s.Latched registry recoveryKey accessKeys) {id : ℕ} {key : PublicKey}
    (hfl : s.flights.get id = some (.settleResolved key true))
    (hstep : s.step (.resolve id true) = some s') : s'.Closed := by
  cases moved_of_step hstep with
  | added hget | refused hget => cases hfl.symm.trans hget
  | resolved hget =>
    cases hfl.symm.trans hget
    refine ⟨rfl, fun i => ?_⟩
    -- It was the only attempt.
    cases hi : (s.flights.remove id).get i with
    | none => rfl
    | some fl =>
      obtain ⟨hne, hi⟩ := LookupMap.get_of_get_remove hi
      exact absurd (hI.single i id _ _ hi hfl) hne

theorem settled_iff (hrun : Run ResaleAccount.step (deployed registry recoveryKey accessKeys) tr s) :
    s.locker.state = .settled ↔ ∃ t ∈ tr, Settles t := by
  constructor
  · intro hsettled
    obtain ⟨t, ht, hbefore, hafter⟩ :=
      hrun.arose (P := fun s => s.locker.state = .settled) (by simp [deployed, ResaleLocker.new])
        hsettled
    obtain ⟨-, -, -, hstep⟩ := hrun.of_mem ht
    exact ⟨t, ht, settles_of_step hstep hbefore hafter⟩
  · rintro ⟨⟨s₁, l, s₂⟩, ht, id, key, rfl, hfl⟩
    obtain ⟨tr₁, tr₂, htr⟩ := List.append_of_mem ht
    obtain ⟨hrun₁, hstep⟩ := hrun.split htr
    have hclosed : s₂.Closed := (latched_of_run hrun₁).closed hfl hstep
    exact (hrun.lasting (fun _ _ hstep h => Closed.step h hstep) htr hclosed).1

end

end ResaleAccount

open ResaleAccount in
/-- In every run of a resale locker at most one key is added. It is one the registry asked
for, nothing is sent or added after it, and the locker is settled once its callback has run. -/
theorem releases_once {registry : AccountId} {recoveryKey : PublicKey}
    {accessKeys : List PublicKey} {tr : List (Transition ResaleAccount ResaleLabel)}
    {s : ResaleAccount}
    (hrun : Run ResaleAccount.step (deployed registry recoveryKey accessKeys) tr s) :
    ReleasesOnce registry recoveryKey accessKeys tr s where
  once := (latched_of_run hrun).keys.imp_right And.right
  adds := by
    rintro ⟨s₁, l, s₂⟩ ht
    obtain ⟨-, -, -, hstep⟩ := hrun.of_mem ht
    have hmoved : s₁.Moved l s₂ := moved_of_step hstep
    cases hmoved with
    | added => exact .inr ⟨_, rfl⟩
    | _ => exact .inl rfl
  requested := by
    intro tr₁ t tr₂ key htr hgets
    obtain ⟨hrun₁, hstep⟩ := hrun.split htr
    obtain ⟨-, id, hlabel, hfl⟩ := getsKey_of_step (latched_of_run hrun₁) hstep hgets
    obtain ⟨u, hu, hbefore, hafter⟩ :=
      hrun₁.arose (P := fun s => s.flights.get id = some (.addKey key)) (by simp [deployed]) hfl
    obtain ⟨tr₃, hrun₃, -, hstep'⟩ := hrun₁.of_mem hu
    obtain ⟨m, hcall, hkey, hsends⟩ :=
      sendsKey_of_step (latched_of_run hrun₃) hstep' hbefore hafter
    exact ⟨u, hu, id, m, hcall, hkey, hsends, hlabel⟩
  last := by
    intro tr₁ t tr₂ key htr hgets u hu
    obtain ⟨hrun₁, hstep⟩ := hrun.split htr
    have hout := (getsKey_of_step (latched_of_run hrun₁) hstep hgets).1
    obtain ⟨tr₃, hrun₃, -, hstep'⟩ := (hrun.drop htr).of_mem hu
    have hbefore : u.before.Released :=
      Reachable.invariant hout (fun _ _ _ h hstep => (h.step hstep).1) ⟨tr₃, hrun₃⟩
    exact (hbefore.step hstep').2
  settled := settled_iff hrun

/-! ## A second attempt -/

namespace Sample

/-- Others are turned away, the first `AddKey` fails, and the abort after it succeeds. A
later unlock is turned away too. -/
def reopened : List ResaleLabel :=
  [.call bob (.unlock otherKey), .call registry (.unlock otherKey), .call registry .abort,
    .resolve 0 false, .resolve 0 true, .call registry .abort, .resolve 1 true, .resolve 1 true,
    .call registry (.unlock otherKey)]

end Sample

theorem releases_once_reopened :
    ∃ tr s, Run ResaleAccount.step (.deployed Sample.registry Sample.ownerKey []) tr s ∧
      tr.map Transition.label = Sample.reopened ∧ s.accessKeys = [Sample.ownerKey] ∧
      s.locker.state = .settled ∧ ReleasesOnce Sample.registry Sample.ownerKey [] tr s := by
  obtain ⟨s, hs⟩ := Option.isSome_iff_exists.mp
    (show (exec ResaleAccount.step (.deployed Sample.registry Sample.ownerKey [])
      Sample.reopened).isSome = true by decide)
  obtain ⟨tr, hrun, hlabels⟩ := Run.of_exec hs
  have hend : (exec ResaleAccount.step (.deployed Sample.registry Sample.ownerKey [])
      Sample.reopened).map (fun s => (s.accessKeys, s.locker.state)) =
        some ([Sample.ownerKey], .settled) := by decide
  rw [hs, Option.map_some, Option.some.injEq, Prod.mk.injEq] at hend
  exact ⟨tr, s, hrun, hlabels, hend.1, hend.2, releases_once hrun⟩

end HosTla
