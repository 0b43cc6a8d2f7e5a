-- SUMMARY: The balance check of a reclaim and that of a sale agree on all results that come in.
import HosTla.Safety.Balances

/-!
# Gates

Two loops read the balances of an account, one before its deletion and one before its sale.
The sale counts the results first. The reclaim only notices a result too many, so it would
go on with a list that ends early. No such list comes in, since the callback is private and
the registry asks every token of the list it hands on.
-/

namespace HosTla

open Foundation

/-- The callback of the balance queries goes on to delete the account. -/
def TlaRegistry.GoesOn (r : TlaRegistry) (results : List PromiseResult) (tlaId : AccountId)
    (name : Str) (destination : AccountId) (allowlist : List AccountId) : Prop :=
  ∃ o subAccount, r.onBalancesChecked results tlaId name destination allowlist = .ok o ∧
    subAccount.chars = subAccountKey tlaId name ∧
    o.promise = some (.finalizeDelete subAccount { tlaId, name, destination })

/-! ## The check of a sale -/

theorem ftBalanceBlockReason_eq_none {result : PromiseResult} :
    ftBalanceBlockReason result = none ↔ result.saysZero = true := by
  unfold ftBalanceBlockReason PromiseResult.saysZero
  cases result.checked ftBalanceMaxLen with
  | error e => cases e <;> simp
  | ok bytes =>
    cases hdecode : decodeU128 bytes with
    | none => simp [hdecode]
    | some balance =>
      simp only [hdecode, Option.some.injEq, decide_eq_true_eq]
      split
      · rename_i hpos
        exact iff_of_false (by simp) (by omega)
      · rename_i hzero
        exact iff_of_true rfl (by omega)

/-- A sale goes on exactly if each token has one result and every result says zero. -/
theorem saleBlockReason_eq_none {results : List PromiseResult} {allowlist : List AccountId} :
    saleBlockReason results allowlist = none ↔
      results.length = allowlist.length ∧ ∀ result ∈ results, result.saysZero = true := by
  unfold saleBlockReason
  split
  · rename_i hlen
    exact iff_of_false (by simp) fun h => hlen h.1
  · rename_i hlen
    have hlen : results.length = allowlist.length := not_not.mp hlen
    -- With equal lengths every result stands next to a token.
    have hall : (∀ x ∈ allowlist.zip results, x.2.saysZero = true) ↔
        ∀ result ∈ results, result.saysZero = true := by
      conv_rhs => rw [← List.map_snd_zip hlen.le]
      simp only [List.forall_mem_map]
    rw [List.findSome?_eq_none_iff, ← hall]
    simp only [hlen, true_and, Option.map_eq_none_iff, ftBalanceBlockReason_eq_none]

/-! ## The check of a reclaim -/

theorem TlaRegistry.goesOn_iff {r : TlaRegistry} {results : List PromiseResult}
    {tlaId destination : AccountId} {name : Str} {allowlist : List AccountId}
    (hkey : isValidAccountId (subAccountKey tlaId name) = true) :
    r.GoesOn results tlaId name destination allowlist ↔
      results.length ≤ allowlist.length ∧ ∀ result ∈ results, result.saysZero = true := by
  rw [← reclaimBlockReason_eq_none]
  constructor
  · rintro ⟨o, subAccount, ho, -, hpromise⟩
    simp only [onBalancesChecked, bind_eq_ok] at ho
    obtain ⟨reason, hreason, ho⟩ := ho
    cases reason with
    | some reason =>
      simp only [pure_eq_ok] at ho
      subst ho
      cases hpromise
    | none => exact hreason
  · intro hclear
    have hparse : AccountId.parse (subAccountKey tlaId name) = some ⟨_, hkey⟩ :=
      AccountId.parse_eq_some.mpr rfl
    refine
      ⟨.withPromise r (.finalizeDelete ⟨_, hkey⟩ { tlaId, name, destination }), _, ?_, rfl, rfl⟩
    simp only [onBalancesChecked, hclear, hparse, okOr]
    rfl

/-- Both gates go on with the results exactly if there is one for each token and all of them
say zero. -/
def TlaRegistry.GatesAgree (r : TlaRegistry) (results : List PromiseResult) (tlaId : AccountId)
    (name : Str) (destination : AccountId) (allowlist : List AccountId) : Prop :=
  (r.GoesOn results tlaId name destination allowlist ↔
      saleBlockReason results allowlist = none) ∧
    (saleBlockReason results allowlist = none ↔
      results.length = allowlist.length ∧ ∀ result ∈ results, result.saysZero = true)

/-- The two gates agree on the results of an account id exactly if there is a result for
each token, or one that does not say zero. -/
theorem gates_agree_iff (r : TlaRegistry) (results : List PromiseResult)
    (allowlist : List AccountId) (tlaId destination : AccountId) (name : Str)
    (hkey : isValidAccountId (subAccountKey tlaId name) = true) :
    r.GatesAgree results tlaId name destination allowlist ↔
      allowlist.length ≤ results.length ∨ ∃ result ∈ results, result.saysZero = false := by
  rw [TlaRegistry.GatesAgree, and_iff_left saleBlockReason_eq_none, TlaRegistry.goesOn_iff hkey,
    saleBlockReason_eq_none]
  by_cases hzero : ∀ result ∈ results, result.saysZero = true
  · have hnone : ¬ ∃ result ∈ results, result.saysZero = false := by
      rintro ⟨result, hmem, hfalse⟩
      rw [hzero result hmem] at hfalse
      cases hfalse
    rw [and_iff_left hzero, and_iff_left hzero, or_iff_left hnone]
    omega
  · refine iff_of_true (by simp only [hzero, and_false]) (.inr ?_)
    simpa using hzero

/-! ## Every token is asked -/

/-- A fan-out is about the account of its key and has one answer for each token. -/
def Flight.Asks : Flight → Prop
  | .reclaimQueries a p allowlist answers => a.chars = p.key ∧ answers.length = allowlist.length
  | .buyQueries a b allowlist answers => a.chars = b.key ∧ answers.length = allowlist.length
  | _ => True

theorem Flight.isSweep_asks {fl : Flight} (h : fl.isSweep = true) : fl.Asks := by
  cases fl <;> trivial

theorem Accepted.asks {env : Env} {r : TlaRegistry} {op : Op} {o : Outcome} {p : Promise}
    (h : Accepted env r op o) (hp : o.promise = some p) : p.flight.Asks := by
  cases h with
  | reclaimFinalize _ haccount =>
    cases hp
    split
    · trivial
    · exact ⟨haccount, List.length_map _⟩
  | buySubAccount _ _ _ _ haccount =>
    cases hp
    split
    · trivial
    · exact ⟨haccount, List.length_map _⟩
  | resale =>
    cases hp
    cases p <;> trivial
  | _ => cases hp <;> trivial

theorem Settled.asks {r : TlaRegistry} {fl : Flight} {o : Outcome} {p : Promise}
    (h : Settled r fl o) (hp : o.promise = some p) : p.flight.Asks := by
  cases h <;> cases hp <;> trivial

theorem Flight.Next.asks {self : AccountId} {fl fl' : Flight} {back : Option (AccountId × ℕ)}
    (hnext : fl.Next self (some fl') back) : fl'.Asks := by
  cases hnext with
  | sweep _ h => exact isSweep_asks h
  | _ => trivial

/-- Every fan-out in flight has one answer for each token it asks. -/
theorem Chain.Reached.asks {g : Genesis} {c : Chain} (h : c.Reached g) {id : ℕ} {fl : Flight}
    (hget : c.flights.get id = some fl) : fl.Asks := by
  let I (c : Chain) : Prop := ∀ id fl, c.flights.get id = some fl → fl.Asks
  refine h.invariant (I := I) ?_ ?_ id fl hget
  · intro id fl hget
    cases hget
  · intro c l c' hI hstep i fl' hget
    rcases (move_of_step hstep).arises hget with hold | harises
    · exact hI i fl' hold
    cases harises with
    | opened hcall _ hp => exact (accepted_of_callOutcome hcall).2.asks hp
    | handed _ ho hp => exact ho.asks hp
    | next _ _ hnext => exact hnext.asks
    -- An answer takes the place of one that is still open.
    | reclaimAnswer hfl | buyAnswer hfl =>
      obtain ⟨fl, hfl', hanswer⟩ := Option.bind_eq_some_iff.mp hstep
      cases hfl.symm.trans hfl'
      simp only [advanceAnswer] at hanswer
      split at hanswer
      · cases hanswer
        cases (LookupMap.get_insert_self _ _ _).symm.trans hget
        obtain ⟨haccount, hlength⟩ := hI i _ hfl
        exact ⟨haccount, (List.length_set ..).trans hlength⟩
      · cases hanswer
    | sweepAnswer h => exact Flight.isSweep_asks h
    | _ => trivial

/-- What a fan-out in flight hands to its callback: the TLA and the name, the tokens it asks,
and the answers so far. -/
def Flight.fanOut : Flight → Option (AccountId × Str × List AccountId × List (Option PromiseResult))
  | .reclaimQueries _ p allowlist answers => some (p.tlaId, p.name, allowlist, answers)
  | .buyQueries _ b allowlist answers => some (b.tlaId, b.name, allowlist, answers)
  | _ => none

/-- A fan-out that is answered has one result for each token, and its key is an account id. -/
theorem Chain.Reached.fanOut {g : Genesis} {c : Chain} (h : c.Reached g) {id : ℕ} {fl : Flight}
    {tlaId : AccountId} {name : Str} {allowlist : List AccountId}
    {answers : List (Option PromiseResult)} {results : List PromiseResult}
    (hget : c.flights.get id = some fl) (hfan : fl.fanOut = some (tlaId, name, allowlist, answers))
    (hanswers : collectAnswers answers = some results) :
    isValidAccountId (subAccountKey tlaId name) = true ∧ results.length = allowlist.length := by
  have hasks := h.asks hget
  have hlength : answers.length = results.length := by
    rw [eq_map_of_collectAnswers hanswers, List.length_map]
  cases fl with
  | reclaimQueries a | buyQueries a =>
    cases hfan
    obtain ⟨haccount, hasked⟩ := hasks
    refine ⟨?_, hlength.symm.trans hasked⟩
    have hvalid := a.valid
    rwa [haccount] at hvalid
  | _ => cases hfan

/-- The two gates agree on all results that have one for each token, and in a run every
fan-out of either gate comes back with such results, for the key of an account id. -/
theorem gates_agree_of_reached {g : Genesis} {c : Chain} (h : c.Reached g) :
    (∀ (r : TlaRegistry) (results : List PromiseResult) (allowlist : List AccountId)
      (tlaId destination : AccountId) (name : Str),
        isValidAccountId (subAccountKey tlaId name) = true →
        allowlist.length ≤ results.length ∨ (∃ result ∈ results, result.saysZero = false) →
          r.GatesAgree results tlaId name destination allowlist) ∧
      ∀ id fl tlaId name allowlist answers results, c.flights.get id = some fl →
        fl.fanOut = some (tlaId, name, allowlist, answers) →
        collectAnswers answers = some results →
          isValidAccountId (subAccountKey tlaId name) = true ∧
          results.length = allowlist.length ∧
          ∀ destination, c.registry.GatesAgree results tlaId name destination allowlist := by
  refine ⟨?_, ?_⟩
  · intro r results allowlist tlaId destination name hkey hread
    exact (gates_agree_iff r results allowlist tlaId destination name hkey).mpr hread
  · intro id fl tlaId name allowlist answers results hget hfan hanswers
    obtain ⟨hkey, hlength⟩ := h.fanOut hget hfan hanswers
    refine ⟨hkey, hlength, fun destination => ?_⟩
    exact (gates_agree_iff c.registry results allowlist tlaId destination name hkey).mpr
      (.inl (Nat.le_of_eq hlength.symm))

/-! ## A list that ends early -/

/-- No result at all for one token: the reclaim goes on and the sale does not. -/
theorem short_list_goes_on :
    isValidAccountId (subAccountKey Sample.tla Sample.name) = true ∧
      (TlaRegistry.new Sample.admin).GoesOn [] Sample.tla Sample.name Sample.alice [Sample.ft] ∧
      saleBlockReason [] [Sample.ft] = some (none, .resultCountMismatch) := by
  refine ⟨by decide, (TlaRegistry.goesOn_iff (by decide)).mpr ⟨by decide, by simp⟩, by decide⟩

/-- A reclaim that waits for its callback, with one answer for the one token. -/
theorem gates_agree_of_reached_answered :
    ∃ c : Chain, c.Reached Sample.genesis ∧
      (∃ answers results, c.flights.get 5 =
          some (.reclaimQueries Sample.sub Sample.reclaim [Sample.ft] answers) ∧
        collectAnswers answers = some results ∧ results.length = 1) ∧
      (∀ (r : TlaRegistry) (results : List PromiseResult) (allowlist : List AccountId)
        (tlaId destination : AccountId) (name : Str),
          isValidAccountId (subAccountKey tlaId name) = true →
          allowlist.length ≤ results.length ∨ (∃ result ∈ results, result.saysZero = false) →
            r.GatesAgree results tlaId name destination allowlist) ∧
        ∀ id fl tlaId name allowlist answers results, c.flights.get id = some fl →
          fl.fanOut = some (tlaId, name, allowlist, answers) →
          collectAnswers answers = some results →
            isValidAccountId (subAccountKey tlaId name) = true ∧
            results.length = allowlist.length ∧
            ∀ destination, c.registry.GatesAgree results tlaId name destination allowlist := by
  refine ⟨Sample.after (Sample.lapsed ++ [Sample.call Sample.admin 0 (.addFtAllowlist Sample.ft),
    Sample.finalize, .answer 5 0 .honest]) (by decide +kernel), Sample.reached _ _,
    ⟨_, _, rfl, rfl, rfl⟩, ?_⟩
  exact gates_agree_of_reached (Sample.reached _ _)

end HosTla
