-- SUMMARY: A deleted account holds no token on the list, as long as nothing arrives after its balance was read.
import HosTla.Chain.Receipts
import HosTla.Safety.Reclaims

/-!
# Balances

`reclaim_finalize` reads the list of tokens and asks each for the balance of the account.
Between an answer and the deletion the account can receive the token again, and the list
can grow. The locker deletes the account without a further look.
-/

namespace HosTla

open Foundation

/-- The result is a balance of zero, short enough to be read. -/
def PromiseResult.saysZero (result : PromiseResult) : Bool :=
  match result.checked ftBalanceMaxLen with
  | .ok bytes => decodeU128 bytes = some 0
  | .error _ => false

/-- The account the chain is about to delete, unless a balance of the token is still to
come, or is one that will stop it. -/
def Flight.pastCheck (token : AccountId) : Flight → Option AccountId
  | .reclaimQueries a _ allowlist answers =>
    if ∃ x ∈ allowlist.zip answers, x.1 = token ∧ x.2.any PromiseResult.saysZero = false then none
    else some a
  | .finalizeCall a _ | .deleteAccount a _ _ => some a
  | _ => none

namespace Chain

/-- Where `delete_account` takes effect, the account holds nothing of a token on the list. -/
def StrandsNothing (c : Chain) : Label → Prop
  | .deliver id true =>
    match c.flights.get id with
    | some (.deleteAccount a _ _) =>
      c.accounts a ≠ .absent → ∀ token ∈ c.registry.ftAllowlist.elems, c.ftBalances token a = 0
    | _ => True
  | _ => True

/-- A token is its balances: it answers a reclaim with zero for an account that holds nothing. -/
def Truthful (c : Chain) : Label → Prop
  | .answer id index (.other result) =>
    match c.flights.get id with
    | some (.reclaimQueries a _ allowlist _) =>
      ∀ token ∈ allowlist[index]?, result.saysZero = true → c.ftBalances token a = 0
    | _ => True
  | _ => True

/-- No token on the list arrives on an account between the check of that token and the
deletion, and no token is listed of which such an account holds some. -/
def KeepsEmpty (c : Chain) : Label → Prop
  | .setFtBalance token receiver amount => token ∈ c.registry.ftAllowlist →
    ∀ a, c.InFlight (Flight.pastCheck token) a → a = receiver → amount = 0
  | .deliver id true =>
    match c.flights.get id with
    | some (.sweepTransfer sender token receiver amount) => token ∈ c.registry.ftAllowlist →
      amount ≤ c.ftBalances token sender →
        ∀ a, c.InFlight (Flight.pastCheck token) a → a = receiver → amount = 0
    | _ => True
  | .call predecessor deposit reserve (.addFtAllowlist token) =>
    (c.callOutcome predecessor deposit reserve (.addFtAllowlist token)).isSome →
      ∀ a, c.InFlight (Flight.pastCheck token) a → c.ftBalances token a = 0
  | _ => True

instance (c : Chain) (l : Label) : Decidable (c.StrandsNothing l) := by
  delta StrandsNothing
  rcases l with _ | ⟨id, _ | _⟩ | _
  · infer_instance
  · infer_instance
  · dsimp only
    rcases c.flights.get id with _ | (_ | _) <;> infer_instance
  all_goals infer_instance

instance (c : Chain) (l : Label) : Decidable (c.Truthful l) := by
  delta Truthful
  rcases l with _ | _ | ⟨id, index, _ | result⟩ | _
  · infer_instance
  · infer_instance
  · infer_instance
  · dsimp only
    rcases c.flights.get id with _ | (_ | _) <;> infer_instance
  all_goals infer_instance

instance (c : Chain) (l : Label) : Decidable (c.KeepsEmpty l) := by
  delta KeepsEmpty
  rcases l with ⟨_, _, _, op⟩ | ⟨id, _ | _⟩ | _
  · rcases op with _ | _ <;> infer_instance
  · infer_instance
  · dsimp only
    rcases c.flights.get id with _ | (_ | _) <;> infer_instance
  all_goals infer_instance

end Chain

/-! ## The check of the balances -/

theorem eq_map_of_collectAnswers {answers : List (Option PromiseResult)}
    {results : List PromiseResult} (h : collectAnswers answers = some results) :
    answers = results.map some := by
  induction answers generalizing results with
  | nil => cases h; rfl
  | cons answer answers ih =>
    cases answer with
    | none => cases h
    | some result =>
      obtain ⟨rest, hrest, rfl⟩ := Option.map_eq_some_iff.mp h
      rw [ih hrest]
      rfl

/-- The loop passes a result exactly if it says zero. -/
theorem reclaimBlockReason_cons {result : PromiseResult} {results : List PromiseResult}
    {token : AccountId} {tokens : List AccountId} :
    reclaimBlockReason (result :: results) (token :: tokens) = .ok none ↔
      result.saysZero = true ∧ reclaimBlockReason results tokens = .ok none := by
  rw [reclaimBlockReason.eq_def]
  unfold PromiseResult.saysZero
  dsimp only
  cases result.checked ftBalanceMaxLen with
  | error e => cases e <;> simp
  | ok bytes =>
    cases hdecode : decodeU128 bytes with
    | none => simp [hdecode]
    | some balance =>
      simp only [hdecode, Option.some.injEq, decide_eq_true_eq]
      split
      · rename_i hpos
        exact iff_of_false (by simp) fun h => absurd h.1 (by omega)
      · rename_i hzero
        exact (and_iff_right (by omega)).symm

/-- A reclaim goes on exactly if no result is too many and every one says zero. -/
theorem reclaimBlockReason_eq_none {results : List PromiseResult} {allowlist : List AccountId} :
    reclaimBlockReason results allowlist = .ok none ↔
      results.length ≤ allowlist.length ∧ ∀ result ∈ results, result.saysZero = true := by
  induction results generalizing allowlist with
  | nil => simp [reclaimBlockReason]
  | cons result results ih =>
    cases allowlist with
    | nil => simp [reclaimBlockReason]
    | cons token allowlist =>
      rw [reclaimBlockReason_cons, ih]
      simp only [List.length_cons, Nat.add_le_add_iff_right, List.forall_mem_cons]
      exact and_left_comm

/-- A token that answers truthfully with zero holds zero. -/
theorem eq_zero_of_saysZero_encode {n : ℕ}
    (h : (PromiseResult.successful (encodeU128 n)).saysZero = true) : n = 0 := by
  unfold PromiseResult.saysZero at h
  split at h
  · rename_i bytes hchecked
    simp only [PromiseResult.checked] at hchecked
    split at hchecked
    · cases hchecked
    · cases hchecked
      exact (decodeU128_encodeU128.mp (of_decide_eq_true h)).1
  · cases h

theorem Flight.pastCheck_queries {token a : AccountId} {p : PendingReclaim}
    {allowlist : List AccountId} {answers : List (Option PromiseResult)} {x : AccountId} :
    (Flight.reclaimQueries a p allowlist answers).pastCheck token = some x ↔
      a = x ∧ ∀ i : ℕ, allowlist[i]? = some token → ∀ answer, answers[i]? = some answer →
        answer.any PromiseResult.saysZero = true := by
  have hopen : (∃ x ∈ allowlist.zip answers, x.1 = token ∧
      x.2.any PromiseResult.saysZero = false) ↔
        ∃ (i : ℕ) (answer : Option PromiseResult), allowlist[i]? = some token ∧
          answers[i]? = some answer ∧ answer.any PromiseResult.saysZero = false := by
    simp only [List.mem_iff_getElem?, List.getElem?_zip_eq_some]
    constructor
    · rintro ⟨⟨t, answer⟩, ⟨i, ht, hanswer⟩, rfl, hzero⟩
      exact ⟨i, answer, ht, hanswer, hzero⟩
    · rintro ⟨i, answer, ht, hanswer, hzero⟩
      exact ⟨⟨token, answer⟩, ⟨i, ht, hanswer⟩, rfl, hzero⟩
  unfold Flight.pastCheck
  dsimp only
  split
  · rename_i h
    obtain ⟨i, answer, ht, hanswer, hzero⟩ := hopen.mp h
    refine iff_of_false (by simp) fun hall => ?_
    rw [hall.2 i ht answer hanswer] at hzero
    cases hzero
  · rename_i h
    rw [Option.some.injEq]
    refine ⟨fun ha => ⟨ha, fun i ht answer hanswer => ?_⟩, fun hall => hall.1⟩
    by_contra hzero
    exact h (hopen.mpr ⟨i, answer, ht, hanswer, by simpa using hzero⟩)

/-- An empty list of open queries blocks nothing, and a list of open queries blocks each token. -/
theorem Accepted.pastCheck {env : Env} {r : TlaRegistry} {op : Op} {o : Outcome}
    (h : Accepted env r op o) {p : Promise} (hp : o.promise = some p) {token a : AccountId}
    (hpast : p.flight.pastCheck token = some a) : token ∉ o.registry.ftAllowlist := by
  cases h with
  | reclaimFinalize =>
    cases hp
    intro htoken
    have hmem : token ∈ r.ftAllowlist.elems := htoken
    split at hpast
    · rename_i hempty
      rw [hempty] at hmem
      cases hmem
    · obtain ⟨i, hi⟩ := List.mem_iff_getElem?.mp hmem
      have hopen := (Flight.pastCheck_queries.mp hpast).2 i hi none
        (by rw [List.getElem?_map, hi]; rfl)
      cases hopen
  | resale _ hresale =>
    cases hp
    cases p with
    | checkBalances | finalizeDelete => cases hresale
    | _ => cases hpast
  | buySubAccount =>
    cases hp
    split at hpast <;> cases hpast
  | _ => cases hp <;> cases hpast

theorem mem_ftAllowlist_of_configures {env : Env} {r : TlaRegistry} {op : Op} {o : Outcome}
    (hop : op.configures = true) (hrun : op.run env r = .ok o) {token : AccountId}
    (h : token ∈ o.registry.ftAllowlist) :
    token ∈ r.ftAllowlist ∨ op = .addFtAllowlist token := by
  cases op <;> cases hop
  all_goals
    simp only [Op.run, TlaRegistry.pause, TlaRegistry.unpause, TlaRegistry.migrate,
      TlaRegistry.addAdmin, TlaRegistry.removeAdmin, TlaRegistry.addFtAllowlist,
      TlaRegistry.removeFtAllowlist, TlaRegistry.addNftAllowlist,
      TlaRegistry.removeNftAllowlist, TlaRegistry.setBusinessSubCap, bind_eq_ok, okOr_eq_ok,
      rejectIf_eq_ok, pure_eq_ok, TlaRegistry.assertAdmin_eq_ok] at hrun
  case pause | unpause | addAdmin | removeNftAllowlist =>
    obtain ⟨-, -, rfl⟩ := hrun
    exact .inl h
  case removeFtAllowlist =>
    obtain ⟨-, -, rfl⟩ := hrun
    exact .inl (IterableSet.mem_remove.mp h).2
  case migrate | removeAdmin | addNftAllowlist =>
    obtain ⟨-, -, _, _, rfl⟩ := hrun
    exact .inl h
  case addFtAllowlist new =>
    obtain ⟨-, -, tokens, htokens, rfl⟩ := hrun
    unfold TlaRegistry.allowlistAdd at htokens
    split at htokens
    · cases htokens
      exact .inl h
    · simp only [bind_eq_ok, rejectIf_eq_ok, pure_eq_ok] at htokens
      obtain ⟨-, -, rfl⟩ := htokens
      rcases IterableSet.mem_insert.mp h with rfl | h
      · exact .inr rfl
      · exact .inl h
  case setBusinessSubCap =>
    obtain ⟨-, -, -, -, -, -, rfl⟩ := hrun
    exact .inl h

/-- Only `add_ft_allowlist` adds to the list. -/
theorem mem_ftAllowlist_of_run {env : Env} {r : TlaRegistry} {op : Op} {o : Outcome}
    (hrun : op.run env r = .ok o) {token : AccountId} (h : token ∈ o.registry.ftAllowlist) :
    token ∈ r.ftAllowlist ∨ op = .addFtAllowlist token := by
  cases accepted_of_run hrun with
  | configured hop => exact mem_ftAllowlist_of_configures hop hrun h
  | _ => exact .inl h

/-! ## Chains past the check -/

namespace Flight

theorem isSweep_pastCheck {fl : Flight} (h : fl.isSweep = true) (token : AccountId) :
    fl.pastCheck token = none := by
  cases fl <;> first | rfl | cases h

/-- The account and the reclaim a chain asks balances for. -/
def querying : Flight → Option (AccountId × PendingReclaim)
  | .reclaimQueries a p _ _ => some (a, p)
  | _ => none

theorem isSweep_querying {fl : Flight} (h : fl.isSweep = true) : fl.querying = none := by
  cases fl <;> first | rfl | cases h

theorem querying_carried : Carried querying where
  next := by
    intro self fl fl' back x hnext hx
    cases hnext with
    | sweep _ h => rw [isSweep_querying h] at hx; cases hx
    | _ => cases hx
  callback := by
    intro r fl o p x ho hp hx
    cases ho <;> cases hp <;> cases hx
  panicked := by
    intro fl x hx
    cases hx
  reclaimAnswer := rfl
  buyAnswer := rfl
  sweep := isSweep_querying
  refund := rfl

theorem Next.pastCheck {self : AccountId} {fl fl' : Flight} {back : Option (AccountId × ℕ)}
    (hnext : fl.Next self (some fl') back) {token a : AccountId}
    (h : fl'.pastCheck token = some a) : fl.pastCheck token = some a := by
  cases hnext with
  | sweep _ hsweep => rw [isSweep_pastCheck hsweep] at h; cases h
  | finalizeAccepted => exact h
  | _ => cases h

end Flight

theorem Accepted.account_of_querying {env : Env} {r : TlaRegistry} {op : Op} {o : Outcome}
    (h : Accepted env r op o) {promise : Promise} (hp : o.promise = some promise)
    {x : AccountId × PendingReclaim} (hx : promise.flight.querying = some x) :
    x.1.chars = x.2.key := by
  cases h with
  | reclaimFinalize _ haccount =>
    cases hp
    split at hx
    · cases hx
    · cases hx; exact haccount
  | resale _ hresale =>
    cases hp
    cases promise with
    | checkBalances => cases hresale
    | _ => cases hx
  | buySubAccount =>
    cases hp
    split at hx <;> cases hx
  | _ => cases hp <;> cases hx

/-- A reclaim asks for the balances of the account it deletes. -/
theorem Chain.Reached.account_of_queries {g : Genesis} {c : Chain} (h : c.Reached g) {id : ℕ}
    {a : AccountId} {p : PendingReclaim} {allowlist : List AccountId}
    {answers : List (Option PromiseResult)}
    (hget : c.flights.get id = some (.reclaimQueries a p allowlist answers)) : a.chars = p.key :=
  h.of_opened Flight.querying_carried (P := fun x => x.1.chars = x.2.key)
    (fun _ _ _ _ _ _ _ ho hp hx => ho.account_of_querying hp hx) hget rfl

/-- A reclaim that goes on after the check of the balances is past it for every token. -/
theorem Settled.pastCheck {r : TlaRegistry} {fl : Flight} {o : Outcome} (h : Settled r fl o)
    {promise : Promise} (hp : o.promise = some promise) {token a : AccountId}
    (hpast : promise.flight.pastCheck token = some a) :
    ∃ a₀ p allowlist answers, fl = .reclaimQueries a₀ p allowlist answers ∧
      fl.pastCheck token = some a₀ ∧ a.chars = p.key := by
  cases h with
  | @reclaimCleared a₀ subAccount p allowlist answers results hanswers hclear haccount =>
    cases hp
    cases hpast
    refine ⟨a₀, p, allowlist, answers, rfl, Flight.pastCheck_queries.mpr ⟨rfl, ?_⟩, haccount⟩
    intro i htoken answer hanswer
    rw [eq_map_of_collectAnswers hanswers, List.getElem?_map, Option.map_eq_some_iff] at hanswer
    obtain ⟨result, hresult, rfl⟩ := hanswer
    exact (reclaimBlockReason_eq_none.mp hclear).2 _ (List.mem_of_getElem? hresult)
  | saleCleared => cases hp; cases hpast
  | _ => cases hp

theorem Settled.ftAllowlist {r : TlaRegistry} {fl : Flight} {o : Outcome} (h : Settled r fl o) :
    o.registry.ftAllowlist = r.ftAllowlist := by
  cases h <;> rfl

namespace Chain

variable {c c' : Chain} {id : ℕ} {ok : Bool} {fl : Flight}

/-- Only the transfer of a sweep moves a token. -/
theorem Receipt.ftBalances (h : c.Receipt id ok fl c') :
    c'.ftBalances = c.ftBalances ∨ ∃ a ft d amount, fl = .sweepTransfer a ft d amount ∧
      ok = true ∧ amount ≤ c.ftBalances ft a ∧
      c'.ftBalances = (c.transferFt ft a d amount).ftBalances := by
  cases h with
  | swept hok hle => exact .inr ⟨_, _, _, _, rfl, hok, hle, rfl⟩
  | _ => exact .inl rfl

theorem transferFt_eq_zero {token a ft sender receiver : AccountId} {amount : ℕ}
    (hzero : c.ftBalances token a = 0) (harrives : token = ft → a = receiver → amount = 0) :
    (c.transferFt ft sender receiver amount).ftBalances token a = 0 := by
  have hsent : (c.setFtBalance ft sender (c.ftBalances ft sender - amount)).ftBalances token a =
      0 := by
    simp only [setFtBalance]
    split
    · rename_i h
      obtain ⟨rfl, rfl⟩ := h
      omega
    · exact hzero
  simp only [transferFt]
  rw [setFtBalance]
  dsimp only
  split
  · rename_i h
    obtain ⟨rfl, rfl⟩ := h
    rw [hsent, harrives rfl rfl]
  · exact hsent

/-- A chain past the check of a token on the list deletes an account without that token. -/
def Emptied (c : Chain) : Prop :=
  ∀ token, token ∈ c.registry.ftAllowlist → ∀ a, c.InFlight (Flight.pastCheck token) a →
    c.ftBalances token a = 0

theorem Emptied.accepted (hI : c.Emptied) {predecessor : AccountId} {deposit reserve : ℕ} {op : Op}
    {o : Outcome} (hcall : c.callOutcome predecessor deposit reserve op = some o)
    (hG : c.KeepsEmpty (.call predecessor deposit reserve op)) : (c.accept deposit o).Emptied := by
  obtain ⟨-, ho⟩ := accepted_of_callOutcome hcall
  rintro token htoken a ⟨i, fl, hget, hpast⟩
  rcases get_accept hget with ⟨p, -, hp, rfl⟩ | hget
  · exact absurd htoken (ho.pastCheck hp hpast)
  · have hflight : c.InFlight (Flight.pastCheck token) a := ⟨i, fl, hget, hpast⟩
    have hrun : op.run (c.callEnv predecessor deposit reserve) c.registry = .ok o := by
      unfold callOutcome at hcall
      split at hcall
      · cases hcall
      · cases hres : op.run (c.callEnv predecessor deposit reserve) c.registry with
        | ok o' => rw [hres] at hcall; cases hcall; rfl
        | error e => rw [hres] at hcall; cases hcall
    rcases mem_ftAllowlist_of_run hrun htoken with hold | rfl
    · exact hI token hold a hflight
    · exact hG (by rw [hcall]; rfl) a hflight

theorem Emptied.settled {g : Genesis} (hreach : c.Reached g) (hI : c.Emptied) {o : Outcome}
    (hfl : c.flights.get id = some fl) (ho : Settled c.registry fl o) :
    (c.settle id o).Emptied := by
  rintro token htoken a ⟨i, fl', hget, hpast⟩
  have hlisted : token ∈ c.registry.ftAllowlist := by
    have htoken : token ∈ o.registry.ftAllowlist := htoken
    rwa [ho.ftAllowlist] at htoken
  rcases get_settle hget with ⟨p, rfl, hp, rfl⟩ | ⟨-, hget⟩
  · obtain ⟨a₀, q, allowlist, answers, rfl, hpast₀, haccount⟩ := ho.pastCheck hp hpast
    have ha : a = a₀ := AccountId.chars_injective
      (haccount.trans (hreach.account_of_queries hfl).symm)
    rw [ha]
    exact hI token hlisted a₀ ⟨i, _, hfl, hpast₀⟩
  · exact hI token hlisted a ⟨i, fl', hget, hpast⟩

theorem Emptied.advanced (hI : c.Emptied) (hfl : c.flights.get id = some fl)
    (h : c.advance id ok fl = some c') (hG : c.KeepsEmpty (.deliver id ok)) : c'.Emptied := by
  have hadv := advanced_of_advance h
  rintro token htoken a ⟨i, fl', hget, hpast⟩
  rw [hadv.registry] at htoken
  have hflight : c.InFlight (Flight.pastCheck token) a := by
    rcases hadv.get hget with ⟨rfl, back, hnext⟩ | ⟨-, hget⟩ | ⟨-, -, _, _, rfl⟩
    · exact ⟨i, fl, hfl, hnext.pastCheck hpast⟩
    · exact ⟨i, fl', hget, hpast⟩
    · cases hpast
  have hzero := hI token htoken a hflight
  rcases (receipt_of_advance h).ftBalances with hsame | ⟨s, ft, d, amount, rfl, rfl, hle, hmoved⟩
  · rw [hsame]
    exact hzero
  · rw [hmoved]
    refine transferFt_eq_zero hzero ?_
    rintro rfl rfl
    simp only [KeepsEmpty, hfl] at hG
    exact hG htoken hle a hflight rfl

/-- A truthful answer takes a chain past the check of a token only where the balance is zero. -/
theorem Emptied.answered (hI : c.Emptied) {index : ℕ} {reply : Reply}
    (hfl : c.flights.get id = some fl) (h : c.advanceAnswer id index reply fl = some c')
    (htruth : c.Truthful (.answer id index reply)) : c'.Emptied := by
  rintro token htoken a ⟨i, fl', hget, hpast⟩
  have hold (hget : c.flights.get i = some fl') (htoken : token ∈ c.registry.ftAllowlist) :
      c.ftBalances token a = 0 := hI token htoken a ⟨i, fl', hget, hpast⟩
  unfold advanceAnswer at h
  split at h
  · rename_i a₀ p allowlist answers
    split at h
    · rename_i t hindex hopen
      cases h
      rcases LookupMap.get_of_get_insert hget with ⟨rfl, rfl⟩ | ⟨-, hget⟩
      · obtain ⟨rfl, hall⟩ := Flight.pastCheck_queries.mp hpast
        by_cases ht : t = token
        -- The answer is about this token, so it has to be a zero.
        · subst ht
          have hlt : index < answers.length := (List.getElem?_eq_some_iff.mp hopen).1
          have hsays := hall index hindex _ (List.getElem?_set_self hlt)
          cases reply with
          | honest => exact eq_zero_of_saysZero_encode hsays
          | other result =>
            simp only [Truthful, hfl] at htruth
            exact htruth t hindex hsays
        · refine hI token htoken a₀ ⟨i, _, hfl, Flight.pastCheck_queries.mpr ⟨rfl, ?_⟩⟩
          intro j hj answer hanswer
          refine hall j hj answer ?_
          rw [List.getElem?_set_ne, hanswer]
          rintro rfl
          rw [hindex] at hj
          exact ht (Option.some.inj hj)
      · exact hold hget htoken
    · cases h
  · split at h
    · cases h
      rcases LookupMap.get_of_get_insert hget with ⟨-, rfl⟩ | ⟨-, hget⟩
      · cases hpast
      · exact hold hget htoken
    · cases h
  · cases h
    rcases LookupMap.get_of_get_insert hget with ⟨-, rfl⟩ | ⟨-, hget⟩
    · cases hpast
    · exact hold hget htoken
  · cases h

theorem Emptied.step {g : Genesis} {l : Label} (hreach : c.Reached g) (hI : c.Emptied)
    (htruth : c.Truthful l) (hG : c.KeepsEmpty l) (hstep : c.step l = some c') : c'.Emptied := by
  cases move_of_step hstep with
  | accepted hcall => exact hI.accepted hcall hG
  | settled hfl _ ho => exact hI.settled hreach hfl ho
  | panicked =>
    rintro token htoken a ⟨i, fl, hget, hpast⟩
    rcases LookupMap.get_of_get_insert hget with ⟨-, rfl⟩ | ⟨-, hget⟩
    · cases hpast
    · exact hI token htoken a ⟨i, fl, hget, hpast⟩
  | advanced hfl _ _ hadvance => exact hI.advanced hfl hadvance hG
  | answered hfl =>
    obtain ⟨fl, hfl, hanswer⟩ := Option.bind_eq_some_iff.mp hstep
    exact hI.answered hfl hanswer htruth
  | @setFtBalance t receiver amount =>
    intro token htoken a hflight
    have hzero := hI token htoken a hflight
    simp only [setFtBalance]
    split
    · rename_i h
      obtain ⟨rfl, rfl⟩ := h
      exact hG htoken a hflight rfl
    · exact hzero
  | _ => exact hI

end Chain

/-- In every run in which no token arrives after its check, an account that is deleted
holds nothing of a token on the list. -/
theorem strands_nothing_of_run {g : Genesis} {tr : List (Transition Chain Label)} {c : Chain}
    (hrun : Run Chain.step (Chain.init g) tr c) (htruth : Meets Chain.Truthful tr)
    (hG : Meets Chain.KeepsEmpty tr) : Meets Chain.StrandsNothing tr := by
  intro t ht
  obtain ⟨tr', hrun', hmem, -⟩ := hrun.of_mem ht
  have hI : t.before.Emptied := by
    refine hrun'.guarded (I := Chain.Emptied) (G := fun c l => c.Truthful l ∧ c.KeepsEmpty l) ?_
      (fun c l c' hreach hI hG hstep => hI.step hreach hG.1 hG.2 hstep)
      fun u hu => ⟨htruth u (hmem u hu), hG u (hmem u hu)⟩
    rintro token - a ⟨i, fl, hget, -⟩
    cases hget
  unfold Chain.StrandsNothing
  split
  · split
    · rename_i a p sent hfl
      intro _ token htoken
      exact hI token htoken a ⟨_, _, hfl, rfl⟩
    · trivial
  · trivial

/-! ## A token that arrives after its check -/

namespace Sample

/-- One token is on the list, it answers that `n.hos` holds none of it, and the locker is
asked to delete the account. -/
def checked : List Label :=
  lapsed ++ [call admin 0 (.addFtAllowlist ft), finalize, .answer 5 0 .honest, .deliver 5 true]

/-- Somebody sends five units before the deletion. -/
def stranded : List Label := checked ++ [.setFtBalance ft sub 5, .deliver 5 true]

end Sample

/-- The account is deleted with the five units. -/
theorem deleted_with_balance :
    ∃ tr c c', Run Chain.step (Chain.init Sample.genesis) tr c ∧ Meets Chain.Truthful tr ∧
      Sample.ft ∈ c.registry.ftAllowlist ∧ c.ftBalances Sample.ft Sample.sub = 5 ∧
      c.step (.deliver 5 true) = some c' ∧ c.accounts Sample.sub ≠ .absent ∧
      c'.accounts Sample.sub = .absent ∧ ¬ c.StrandsNothing (.deliver 5 true) := by
  obtain ⟨tr, hrun, htruth⟩ :=
    Sample.exists_run_meets Chain.Truthful Sample.stranded (by decide +kernel) (by decide +kernel)
  exact ⟨tr, _, (Chain.step _ (.deliver 5 true)).get (by decide +kernel), hrun, htruth, by decide +kernel,
    by decide +kernel, (Option.some_get _).symm, by decide +kernel, by decide +kernel, by decide +kernel⟩

/-- The account holds the token at first, and has nothing left when it is asked again. -/
theorem strands_nothing_of_run_checked :
    ∃ tr c, Run Chain.step (Chain.init Sample.genesis) tr c ∧
      c.accounts Sample.sub = .absent ∧ Meets Chain.StrandsNothing tr := by
  obtain ⟨tr, hrun, hboth⟩ := Sample.exists_run_meets
    (fun c l => c.Truthful l ∧ c.KeepsEmpty l)
    (.setFtBalance Sample.ft Sample.sub 5 :: Sample.lapsed ++
      [Sample.call Sample.admin 0 (.addFtAllowlist Sample.ft), Sample.finalize,
        .answer 5 0 .honest, .deliver 5 true, .setFtBalance Sample.ft Sample.sub 0,
        Sample.finalize, .answer 6 0 .honest, .deliver 6 true, .deliver 6 true, .deliver 6 true])
    (by decide +kernel) (by decide +kernel)
  exact ⟨tr, _, hrun, by decide +kernel,
    strands_nothing_of_run hrun (fun t ht => (hboth t ht).1) fun t ht => (hboth t ht).2⟩

end HosTla
