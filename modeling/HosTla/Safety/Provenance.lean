-- SUMMARY: A key that a resale locker of the registry adds goes back to a call of an admin, through two contracts.
import HosTla.Chain.Configuration
import HosTla.Chain.Resale
import HosTla.Safety.Resales

/-!
# Where resale keys come from

The locker trusts its registry, and the registry trusts its admins. Between the two lie the
receipts on their way to the lockers. A key that comes out of a locker is followed back
over all of it, to the call of an admin in the same run.
-/

namespace HosTla

open Foundation

/-- An admin calls the registry for the account, and the registry takes the call. -/
def AdminCalls (account : AccountId) (m : ResaleCall)
    (t : Transition ResaleSystem ResaleSystemLabel) : Prop :=
  ∃ predecessor deposit reserve,
    t.label = .chain (.call predecessor deposit reserve (m.op account)) ∧
      predecessor ∈ t.before.chain.registry.admins

def Deploys (account registry : AccountId) (recoveryKey : PublicKey) (accessKeys : List PublicKey)
    (t : Transition ResaleSystem ResaleSystemLabel) : Prop :=
  t.label = .deploy account registry recoveryKey accessKeys

/-- An admin asked for this key: the key of a buyer, or the recovery key. -/
def AskedFor (tr : List (Transition ResaleSystem ResaleSystemLabel)) (account : AccountId)
    (recoveryKey key : PublicKey) : Prop :=
  ∃ m, key = m.key recoveryKey ∧ ∃ t ∈ tr, AdminCalls account m t

theorem AskedFor.append {tr : List (Transition ResaleSystem ResaleSystemLabel)}
    {account : AccountId} {recoveryKey key : PublicKey} (h : AskedFor tr account recoveryKey key)
    (tr' : List (Transition ResaleSystem ResaleSystemLabel)) :
    AskedFor (tr ++ tr') account recoveryKey key := by
  obtain ⟨m, hkey, t, ht, hcalls⟩ := h
  exact ⟨m, hkey, t, List.mem_append_left _ ht, hcalls⟩

/-! ## The receipt to the locker -/

section

variable {c c' : Chain} {l : Label}

/-- A receipt to a resale locker is opened by `resale_unlock` or `resale_abort`. -/
theorem resale_of_callOutcome {predecessor : AccountId} {deposit reserve : ℕ} {op : Op} {o : Outcome}
    {p : Promise} {account : AccountId} (h : c.callOutcome predecessor deposit reserve op = some o)
    (hp : o.promise = some p) (hfl : p.flight = .resaleCall account) :
    predecessor ∈ c.registry.admins ∧ ∃ m : ResaleCall, op = m.op account := by
  have hrun := Chain.run_of_callOutcome h
  obtain ⟨-, ho⟩ := Chain.accepted_of_callOutcome h
  cases ho with
  | resale hop _ hadmin =>
    refine ⟨hadmin, ?_⟩
    cases op <;> cases hop
    all_goals
      simp only [Op.run, TlaRegistry.resaleUnlock, TlaRegistry.resaleAbort, bind_eq_ok,
        pure_eq_ok] at hrun
      obtain ⟨-, -, hrun⟩ := hrun
      cases hp
    · cases hrun
      cases hfl
      exact ⟨.unlock _, rfl⟩
    · cases hrun
      cases hfl
      exact ⟨.abort, rfl⟩
  | reclaimFinalize | buySubAccount =>
    cases hp
    split at hfl <;> cases hfl
  | _ => cases hp <;> cases hfl

/-- A receipt to a resale locker was under way before the step, or the step opens it. -/
theorem resaleCall_of_step (hstep : c.step l = some c') {id : ℕ} {account : AccountId}
    (hfl : c'.flights.get id = some (.resaleCall account)) :
    c.flights.get id = some (.resaleCall account) ∨
      id = c.nextId ∧ ∃ predecessor deposit reserve, ∃ m : ResaleCall,
        l = .call predecessor deposit reserve (m.op account) ∧
        predecessor ∈ c.registry.admins ∧
        (c.callOutcome predecessor deposit reserve (m.op account)).isSome = true := by
  rcases (Chain.move_of_step hstep).arises hfl with hold | harises
  · exact .inl hold
  generalize hnew : Flight.resaleCall account = fl at harises
  cases harises with
  | opened hcall _ hp =>
    obtain ⟨hadmin, m, rfl⟩ := resale_of_callOutcome hcall hp hnew.symm
    exact .inr ⟨rfl, _, _, _, m, rfl, hadmin, by rw [hcall]; rfl⟩
  | handed _ ho hp =>
    cases ho <;> cases hp <;> cases hnew
  | next _ _ hnext =>
    subst hnew
    cases hnext with
    | sweep _ h' => cases h'
  | sweepAnswer h =>
    subst hnew
    cases h
  | _ => cases hnew

end

/-! ## The lockers -/

/-- What the run knows of a resale locker. -/
structure Traced (tr : List (Transition ResaleSystem ResaleSystemLabel)) (home account : AccountId)
    (registry : AccountId) (recoveryKey : PublicKey) (accessKeys : List PublicKey)
    (a : ResaleAccount) : Prop where
  deployed : ∃ t ∈ tr, Deploys account registry recoveryKey accessKeys t
  latched : a.Latched registry recoveryKey accessKeys
  /-- The keys under way, and the key that is out, were asked for. -/
  sent : registry = home → ∀ id key, a.flights.get id = some (.addKey key) →
    AskedFor tr account recoveryKey key
  added : registry = home → ∀ key, a.accessKeys = key :: accessKeys →
    AskedFor tr account recoveryKey key

namespace Traced

variable {tr : List (Transition ResaleSystem ResaleSystemLabel)} {home account registry : AccountId}
  {recoveryKey : PublicKey} {accessKeys : List PublicKey} {a a' : ResaleAccount}

theorem append (h : Traced tr home account registry recoveryKey accessKeys a)
    (tr' : List (Transition ResaleSystem ResaleSystemLabel)) :
    Traced (tr ++ tr') home account registry recoveryKey accessKeys a where
  deployed := by
    obtain ⟨t, ht, hdeploys⟩ := h.deployed
    exact ⟨t, List.mem_append_left _ ht, hdeploys⟩
  latched := h.latched
  sent hhome id key hfl := (h.sent hhome id key hfl).append tr'
  added hhome key hkeys := (h.added hhome key hkeys).append tr'

/-- The locker takes a step. A call it accepts comes from its registry, and an admin has
made it if that is the registry of the run. -/
theorem step (h : Traced tr home account registry recoveryKey accessKeys a) {l : ResaleLabel}
    (hstep : a.step l = some a')
    (hasked : ∀ m, l = .call home m → ∃ t ∈ tr, AdminCalls account m t) :
    Traced tr home account registry recoveryKey accessKeys a' := by
  refine ⟨h.deployed, h.latched.step hstep, ?_, ?_⟩
  · intro hhome id key hfl
    cases ResaleAccount.moved_of_step hstep with
    | rejected => exact h.sent hhome id key hfl
    | @accepted m =>
      rcases LookupMap.get_of_get_insert hfl with ⟨-, heq⟩ | ⟨-, hfl⟩
      · cases heq
        rw [h.latched.registry, hhome] at hasked
        rw [h.latched.recoveryKey]
        exact ⟨m, rfl, hasked m rfl⟩
      · exact h.sent hhome id key hfl
    | added | refused =>
      rcases LookupMap.get_of_get_insert hfl with ⟨-, heq⟩ | ⟨-, hfl⟩
      · cases heq
      · exact h.sent hhome id key hfl
    | resolved | lost => exact h.sent hhome id key (LookupMap.get_of_get_remove hfl).2
  · intro hhome key hkeys
    cases ResaleAccount.moved_of_step hstep with
    | added hfl =>
      cases hkeys
      exact h.sent hhome _ _ hfl
    | _ => exact h.added hhome key hkeys

end Traced

/-! ## The system -/

/-- What a run knows of the calls under way and of the lockers. -/
structure Sourced (home : AccountId) (tr : List (Transition ResaleSystem ResaleSystemLabel))
    (s : ResaleSystem) : Prop where
  stays : s.chain.self = home
  fresh : s.chain.FreshIds
  calls : ∀ id account m, s.chain.flights.get id = some (.resaleCall account) →
    s.calls id = some m → ∃ t ∈ tr, AdminCalls account m t
  lockers : ∀ account a, s.lockers account = some a → ∃ registry recoveryKey accessKeys,
    Traced tr home account registry recoveryKey accessKeys a

namespace Sourced

variable {home : AccountId} {tr : List (Transition ResaleSystem ResaleSystemLabel)}
  {s s' : ResaleSystem}

/-- A step that leaves the chain as it is and changes one locker at most. -/
theorem setLocker (h : Sourced home tr s) (t : Transition ResaleSystem ResaleSystemLabel)
    {account : AccountId} {a : ResaleAccount}
    (ha : ∃ registry recoveryKey accessKeys,
      Traced (tr ++ [t]) home account registry recoveryKey accessKeys a) :
    Sourced home (tr ++ [t]) (s.setLocker account a) where
  stays := h.stays
  fresh := h.fresh
  calls id account m hfl hm := by
    obtain ⟨u, hu, hcalls⟩ := h.calls id account m hfl hm
    exact ⟨u, List.mem_append_left _ hu, hcalls⟩
  lockers account' a' ha' := by
    by_cases heq : account' = account
    · subst heq
      simp only [ResaleSystem.setLocker, Function.update_self, Option.some.injEq] at ha'
      exact ha' ▸ ha
    · simp only [ResaleSystem.setLocker, Function.update_of_ne heq] at ha'
      obtain ⟨registry, recoveryKey, accessKeys, htraced⟩ := h.lockers account' a' ha'
      exact ⟨registry, recoveryKey, accessKeys, htraced.append [t]⟩

theorem arrival_eq_some {l : Label} {account : AccountId} {a' : ResaleAccount}
    (h : s.arrival l = some (account, a')) :
    ∃ id m a, l = .deliver id true ∧ s.chain.flights.get id = some (.resaleCall account) ∧
      s.calls id = some m ∧ s.lockers account = some a ∧ a' = a.acceptCall s.chain.self m := by
  unfold ResaleSystem.arrival at h
  split at h
  · rename_i id
    split at h
    · rename_i target hfl
      obtain ⟨m, hm, h⟩ := Option.bind_eq_some_iff.mp h
      obtain ⟨a, ha, heq⟩ := Option.map_eq_some_iff.mp h
      cases heq
      exact ⟨id, m, a, rfl, hfl, hm, ha, rfl⟩
    · cases h
  · cases h

/-- A step of the chain, before the locker it reaches takes its call. -/
theorem chain (h : Sourced home tr s) {l : Label} {c' : Chain} (hstep : s.chain.step l = some c')
    (s₂ : ResaleSystem) :
    Sourced home (tr ++ [⟨s, .chain l, s₂⟩]) { s with chain := c', calls := s.callsAfter l } where
  stays := (Chain.self_of_step hstep).trans h.stays
  fresh := (Chain.move_of_step hstep).freshIds h.fresh
  calls id account m hfl hm := by
    rcases resaleCall_of_step hstep hfl with
      hold | ⟨rfl, predecessor, deposit, reserve, m', rfl, hadmin, hcall⟩
    · -- The id is in use already, so the step records no other call under it.
      have hne : id ≠ s.chain.nextId := Nat.ne_of_lt (h.fresh _ _ hold)
      have hsame : s.callsAfter l id = s.calls id := by
        unfold ResaleSystem.callsAfter
        split
        · split
          · exact Function.update_of_ne hne _ _
          · rfl
        · rfl
      obtain ⟨t, ht, hcalls⟩ := h.calls id account m hold (hsame ▸ hm)
      exact ⟨t, List.mem_append_left _ ht, hcalls⟩
    · simp only [ResaleSystem.callsAfter, hcall, if_true, Function.update_self,
        ResaleCall.resaleCall_op, Option.some.injEq] at hm
      subst hm
      exact ⟨_, List.mem_append_right _ (List.mem_singleton_self _), predecessor, deposit, reserve,
        rfl, hadmin⟩
  lockers account a ha := by
    obtain ⟨registry, recoveryKey, accessKeys, htraced⟩ := h.lockers account a ha
    exact ⟨registry, recoveryKey, accessKeys, htraced.append _⟩

theorem step (h : Sourced home tr s) {l : ResaleSystemLabel} (hstep : s.step l = some s') :
    Sourced home (tr ++ [⟨s, l, s'⟩]) s' := by
  cases l with
  | chain l =>
    obtain ⟨c', hc', heq⟩ := Option.map_eq_some_iff.mp hstep
    have hchain := h.chain hc' s'
    cases harrival : s.arrival l with
    | none =>
      rw [harrival] at heq
      subst heq
      exact hchain
    | some x =>
      obtain ⟨account, a'⟩ := x
      rw [harrival] at heq
      subst heq
      -- The call that arrives was sent earlier in the run.
      obtain ⟨id, m, a, rfl, hfl, hm, ha, rfl⟩ := arrival_eq_some harrival
      obtain ⟨registry, recoveryKey, accessKeys, htraced⟩ := h.lockers account a ha
      have htaken : Traced tr home account registry recoveryKey accessKeys
          (a.acceptCall s.chain.self m) := by
        refine htraced.step (l := .call s.chain.self m) rfl fun m' hm' => ?_
        cases hm'
        exact h.calls id account m hfl hm
      refine ⟨hchain.stays, hchain.fresh, hchain.calls, fun account' a' ha' => ?_⟩
      by_cases heq : account' = account
      · subst heq
        simp only [Option.elim_some, ResaleSystem.setLocker, Function.update_self,
          Option.some.injEq] at ha'
        exact ⟨registry, recoveryKey, accessKeys, ha' ▸ htaken.append _⟩
      · simp only [Option.elim_some, ResaleSystem.setLocker, Function.update_of_ne heq] at ha'
        exact hchain.lockers account' a' ha'
  | deploy account registry recoveryKey accessKeys =>
    simp only [ResaleSystem.step] at hstep
    split at hstep
    · cases hstep
    · cases hstep
      refine h.setLocker _ ⟨registry, recoveryKey, accessKeys, ?_⟩
      refine ⟨⟨_, List.mem_append_right _ (List.mem_singleton_self _), rfl⟩,
        ResaleAccount.latched_deployed, (fun _ _ _ h => by cases h), ?_⟩
      intro _ key hkeys
      exact absurd (congrArg List.length hkeys) (by simp [ResaleAccount.deployed])
  | call account predecessor m =>
    simp only [ResaleSystem.step] at hstep
    split at hstep
    · cases hstep
    · rename_i hother
      obtain ⟨a, ha, rfl⟩ := Option.map_eq_some_iff.mp hstep
      obtain ⟨registry, recoveryKey, accessKeys, htraced⟩ := h.lockers account a ha
      refine h.setLocker _ ⟨registry, recoveryKey, accessKeys, ?_⟩
      refine (htraced.append _).step (l := .call predecessor m) rfl fun m' hm' => ?_
      cases hm'
      exact absurd h.stays.symm hother
  | resolve account id ok =>
    obtain ⟨a, ha, hresolve⟩ := Option.bind_eq_some_iff.mp hstep
    obtain ⟨a', ha', rfl⟩ := Option.map_eq_some_iff.mp hresolve
    obtain ⟨registry, recoveryKey, accessKeys, htraced⟩ := h.lockers account a ha
    refine h.setLocker _ ⟨registry, recoveryKey, accessKeys, ?_⟩
    exact (htraced.append _).step ha' fun m hm => by cases hm

end Sourced

/-- A resale locker gives out one key at most, and if it was deployed for the registry, then
whatever anybody calls and in whatever order the receipts of the two contracts arrive, an
account that was admin at the time asked for that key in a call to the registry. -/
theorem resale_key_from_admin {g : Genesis}
    {tr : List (Transition ResaleSystem ResaleSystemLabel)} {s : ResaleSystem}
    (hrun : Run ResaleSystem.step (ResaleSystem.init g) tr s) {account : AccountId}
    {a : ResaleAccount} (ha : s.lockers account = some a) :
    ∃ registry recoveryKey accessKeys,
      (∃ t ∈ tr, Deploys account registry recoveryKey accessKeys t) ∧
      (a.accessKeys = accessKeys ∨ ∃ key, a.accessKeys = key :: accessKeys ∧
        a.locker.state ≠ .active ∧
        (registry = g.self → AskedFor tr account recoveryKey key)) := by
  have hsourced : Sourced g.self tr s := by
    clear ha
    induction hrun with
    | nil =>
      refine ⟨rfl, ?_, ?_, fun _ _ h => by cases h⟩
      · intro id fl hfl
        cases hfl
      · intro id account m hfl
        cases hfl
    | snoc _ hstep ih => exact ih.step hstep
  obtain ⟨registry, recoveryKey, accessKeys, htraced⟩ := hsourced.lockers account a ha
  refine ⟨registry, recoveryKey, accessKeys, htraced.deployed, ?_⟩
  refine htraced.latched.keys.imp_right fun ⟨hreleased, key, hkeys⟩ => ?_
  exact ⟨key, hkeys, hreleased.inactive, fun hhome => htraced.added hhome key hkeys⟩

namespace Sample

/-- Bob's account runs a resale locker of the registry, and the admin unlocks it. -/
def unlocking : List ResaleSystemLabel :=
  [.deploy bob registry ownerKey [], .chain (call admin 0 (.resaleUnlock bob otherKey)),
    .chain (.deliver 0 true), .resolve bob 0 true]

def unlocked : ResaleSystem :=
  (exec ResaleSystem.step (ResaleSystem.init genesis) unlocking).get (by decide +kernel)

end Sample

theorem resale_key_from_admin_unlocked :
    ∃ tr a, tr.map Transition.label = Sample.unlocking ∧
      Sample.unlocked.lockers Sample.bob = some a ∧ a.accessKeys = [Sample.otherKey] ∧
      ∃ registry recoveryKey accessKeys,
        (∃ t ∈ tr, Deploys Sample.bob registry recoveryKey accessKeys t) ∧
        (a.accessKeys = accessKeys ∨ ∃ key, a.accessKeys = key :: accessKeys ∧
          a.locker.state ≠ .active ∧
          (registry = Sample.registry → AskedFor tr Sample.bob recoveryKey key)) := by
  have hexec : exec ResaleSystem.step (ResaleSystem.init Sample.genesis) Sample.unlocking =
    some Sample.unlocked := (Option.some_get _).symm
  have hkeys : ∃ a ∈ Sample.unlocked.lockers Sample.bob, a.accessKeys = [Sample.otherKey] := by
    decide +kernel
  obtain ⟨tr, hrun, hlabels⟩ := Run.of_exec hexec
  obtain ⟨a, ha, hkeys⟩ := hkeys
  exact ⟨tr, a, hlabels, ha, hkeys, resale_key_from_admin hrun ha⟩

end HosTla
