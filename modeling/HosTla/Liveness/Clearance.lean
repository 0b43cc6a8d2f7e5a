-- SUMMARY: Anybody can bring a reclaim to its end, by one sweep of each token and one finalization.
import HosTla.Liveness.Completions
import HosTla.Registry.Views
import HosTla.Safety.Solvency

/-!
# Clearance

A finalization does nothing as long as the account holds a token of the allowlist, and a
sweep sends one token away. From every reachable state where an account is due, the sweeps of
all tokens and one finalization are accepted one after the other, whoever makes them and
without a deposit, and together they clear the account. Each call is left to itself until its
receipts are done, they succeed, and the tokens say the truth.
-/

namespace HosTla

open Foundation

/-- A call to the registry. -/
def Label.isCall : Label → Bool
  | .call .. => true
  | _ => false

namespace Chain

/-- The calls are accepted one after the other, and each is left to itself until its chain has
come to its end. -/
inductive Served : Chain → List Label → Chain → Prop
  | nil {c : Chain} : Served c [] c
  | cons {c c₁ c' : Chain} {predecessor : AccountId} {deposit reserve : ℕ} {op : Op} {o : Outcome}
      {calls : List Label} (hbound : c.nativeTotal + deposit < u128Max)
      (hcall : c.callOutcome predecessor deposit reserve op = some o)
      (hends : (c.accept deposit o).EndsIn c.nextId c₁) (hrest : Served c₁ calls c') :
      Served c (.call predecessor deposit reserve op :: calls) c'

theorem Served.append {c c₁ c' : Chain} {calls calls' : List Label} (h : Served c calls c₁)
    (h' : Served c₁ calls' c') : Served c (calls ++ calls') c' := by
  induction h with
  | nil => exact h'
  | cons hbound hcall hends _ ih => exact .cons hbound hcall hends (ih h')

/-- What is served is a run of these calls and of receipts of the chains they opened. -/
theorem Served.exists_run {c c' : Chain} {calls : List Label} (h : Served c calls c') :
    ∃ tr, Run Chain.step c tr c' ∧ (tr.map Transition.label).filter Label.isCall = calls ∧
      ∀ t ∈ tr, t.label.isCall = false → ∃ id, c.nextId ≤ id ∧ Own id t.before t.label := by
  induction h with
  | nil => exact ⟨[], .nil, rfl, fun _ ht => absurd ht List.not_mem_nil⟩
  | @cons c c₁ c' predecessor deposit reserve op o calls hbound hcall hends _ ih =>
    have hstep : c.step (.call predecessor deposit reserve op) = some (c.accept deposit o) := by
      simp only [step]
      rw [if_pos hbound, hcall]
      rfl
    obtain ⟨tr, hrun, hown⟩ := hends.exists_run
    obtain ⟨tr', hrun', hcalls, hown'⟩ := ih
    have hnext : c.nextId ≤ c₁.nextId := by
      have hreached : Reachable Chain.step c c₁ := ⟨_, (Run.nil.snoc hstep).append hrun⟩
      refine hreached.invariant (I := fun s => c.nextId ≤ s.nextId) (Nat.le_refl _) ?_
      intro s l s' hle hs
      exact Nat.le_trans hle (move_of_step hs).nextId_le
    have hnone : (tr.map Transition.label).filter Label.isCall = [] := by
      rw [List.filter_eq_nil_iff]
      intro l hl
      obtain ⟨t, ht, rfl⟩ := List.mem_map.mp hl
      rcases hown t ht with hlabel | ⟨index, hlabel⟩ <;> rw [hlabel] <;> exact Bool.false_ne_true
    refine ⟨_, ((Run.nil.snoc hstep).append hrun).append hrun', ?_, ?_⟩
    · simp only [List.nil_append, List.map_append, List.map_cons, List.map_nil,
        List.filter_append, hnone, hcalls]
      rfl
    · intro t ht hreceipt
      rcases List.mem_append.mp ht with ht | ht
      · rcases List.mem_append.mp ht with ht | ht
        · rw [List.mem_singleton.mp ht] at hreceipt
          cases hreceipt
        · exact ⟨c.nextId, Nat.le_refl _, hown t ht⟩
      · obtain ⟨id, hid, hown⟩ := hown' t ht hreceipt
        exact ⟨id, Nat.le_trans hnext hid, hown⟩

/-- The account of `name` can be reclaimed: nothing protects it, and its locker holds it. Its
assets go to `wallet`. -/
structure Due (c : Chain) (tlaId a wallet : AccountId) (name : Str) : Prop where
  unpaused : c.registry.paused = false
  account : a.chars = subAccountKey tlaId name
  unprotected : c.registry.getMotherUseCount a = 0
  reclaimable : ∃ sub tla, c.registry.subAccounts.get (subAccountKey tlaId name) = some sub ∧
    c.registry.tlas.get tlaId = some tla ∧
    effectiveSubLifecycle sub tla c.registry.feeConfig.retractionNoticeNs c.now = .reclaimable ∧
    wallet = sub.mainWallet
  held : ∃ l accessKeys, c.accounts a = .locker l accessKeys ∧ l.state = .held
  fits : c.Fits a c.registry.ftAllowlist.elems

/-- One sweep of each token, and one finalization. -/
def clearingCalls (caller tlaId : AccountId) (name : Str) (reserve : ℕ) (tokens : List AccountId) :
    List Label :=
  (tokens.map fun ft => .call caller 0 reserve (.reclaimSweepFt tlaId name ft)) ++
    [.call caller 0 reserve (.reclaimFinalize tlaId name)]

/-- The balances after `tokens` went from `a` to `wallet`. -/
def gathered (c : Chain) (a wallet : AccountId) (tokens : List AccountId) :
    AccountId → AccountId → ℕ :=
  fun token account =>
    if token ∈ tokens then
      if account = a then 0
      else if account = wallet then c.ftBalances token wallet + c.ftBalances token a
      else c.ftBalances token account
    else c.ftBalances token account

variable {c c' : Chain} {caller tlaId a wallet : AccountId} {name : Str} {reserve : ℕ}

theorem gathered_cons (hne : wallet ≠ a) (token : AccountId) (tokens : List AccountId) (n : ℕ) :
    ({ c with ftBalances := c.gathered a wallet [token], nextId := n } : Chain).gathered a wallet
      tokens = c.gathered a wallet (token :: tokens) := by
  funext t account
  simp only [gathered, List.mem_cons, List.not_mem_nil, or_false]
  grind

/-- The state after the sweeps of `tokens`, which took up some ids. -/
def cleared (c : Chain) (a wallet : AccountId) (tokens : List AccountId) (nextId : ℕ) : Chain :=
  { c with ftBalances := c.gathered a wallet tokens, nextId }

theorem swept_eq (hne : wallet ≠ a) (token : AccountId) :
    (if c.ftBalances token a = 0 then c.called 0 0 else (c.called 0 0).swept a token wallet) =
      c.cleared a wallet [token] (c.nextId + 1) := by
  have hgathered : c.gathered a wallet [token] =
      (if c.ftBalances token a = 0 then c.called 0 0
        else (c.called 0 0).swept a token wallet).ftBalances := by
    funext t account
    simp only [gathered, List.mem_singleton, swept, transferFt, setFtBalance, called]
    split <;> grind
  simp only [cleared, hgathered]
  split <;> rfl

theorem Due.sweep {g : Genesis} (h : c.Reached g) (hdue : c.Due tlaId a wallet name)
    (hne : wallet ≠ a) {token : AccountId} (htoken : token ∈ c.registry.ftAllowlist) :
    Served c [.call caller 0 reserve (.reclaimSweepFt tlaId name token)]
      (c.cleared a wallet [token] (c.nextId + 1)) := by
  obtain ⟨l, accessKeys, hlocker, hstate⟩ := hdue.held
  have hregistry : l.registry = c.self := h.loyal.deployed a l accessKeys hlocker
  have hfree : c.flights.get c.nextId = none := h.freshIds.get_nextId
  have hcall : c.callOutcome caller 0 reserve (.reclaimSweepFt tlaId name token) =
      some (.withPromise c.registry (.sweepFt a token wallet)) := by
    have hrun : c.registry.reclaimSweepFt (c.callEnv caller 0 reserve) tlaId name token =
        .ok (.withPromise c.registry (.sweepFt a token wallet)) := by
      simp only [TlaRegistry.reclaimSweepFt, bind_eq_ok, rejectIf_eq_ok, okOr_eq_ok, not_not,
        TlaRegistry.assertNotPaused_eq_ok, TlaRegistry.assertNotMother_eq_ok,
        AccountId.parse_eq_some]
      exact ⟨(), hdue.unpaused, (), htoken, a, hdue.account, (), hdue.unprotected, wallet,
        TlaRegistry.reclaimDestination_eq_ok.mpr hdue.reclaimable, rfl⟩
    simp only [callOutcome, Op.run, hrun]
    rfl
  refine .cons h.nativeTotal_lt hcall ?_ .nil
  refine ⟨hfree, ?_⟩
  rw [← swept_eq hne]
  exact inevitable_sweep (c := c.called 0 0) hfree hlocker hregistry hstate
    (hdue.fits token htoken)

theorem gathered_le (tokens : List AccountId) (token : AccountId) :
    c.gathered a wallet tokens token a ≤ c.ftBalances token a := by
  unfold gathered
  split
  · rw [if_pos rfl]
    exact Nat.zero_le _
  · exact Nat.le_refl _

theorem Due.cleared (hdue : c.Due tlaId a wallet name) (tokens : List AccountId) (nextId : ℕ) :
    (c.cleared a wallet tokens nextId).Due tlaId a wallet name where
  unpaused := hdue.unpaused
  account := hdue.account
  unprotected := hdue.unprotected
  reclaimable := hdue.reclaimable
  held := hdue.held
  fits token htoken := (gathered_le tokens token).trans (hdue.fits token htoken)

/-- The sweeps of some tokens of the allowlist, one after the other. -/
theorem Due.sweeps {g : Genesis} (h : c.Reached g) (hdue : c.Due tlaId a wallet name)
    (hne : wallet ≠ a) {tokens : List AccountId}
    (htokens : ∀ token ∈ tokens, token ∈ c.registry.ftAllowlist) :
    ∃ nextId, Served c (tokens.map fun ft => .call caller 0 reserve (.reclaimSweepFt tlaId name ft))
      (c.cleared a wallet tokens nextId) := by
  induction tokens generalizing c with
  | nil =>
    have hnone : c.cleared a wallet [] c.nextId = c := by
      have hgathered : c.gathered a wallet [] = c.ftBalances := by
        funext t account
        exact if_neg List.not_mem_nil
      simp only [Chain.cleared, hgathered]
    exact ⟨c.nextId, hnone.symm ▸ .nil⟩
  | cons token rest ih =>
    have hsweep := @sweep c caller tlaId a wallet name reserve g h hdue hne token
      (htokens token List.mem_cons_self)
    obtain ⟨tr, hrun, -⟩ := hsweep.exists_run
    obtain ⟨nextId, hrest⟩ := ih (h.run hrun) (hdue.cleared _ _)
      fun t ht => htokens t (List.mem_cons_of_mem _ ht)
    have hlast : (c.cleared a wallet [token] (c.nextId + 1)).cleared a wallet rest nextId =
        c.cleared a wallet (token :: rest) nextId := by
      unfold Chain.cleared
      rw [gathered_cons hne]
    exact ⟨nextId, hlast ▸ hsweep.append hrest⟩

/-- The finalization of an account that holds none of the tokens. -/
theorem Due.finalize {g : Genesis} (h : c.Reached g) (hdue : c.Due tlaId a wallet name)
    (hempty : c.Empty a c.registry.ftAllowlist.elems) :
    Served c [.call caller 0 reserve (.reclaimFinalize tlaId name)]
      ((c.called 0 0).reclaimed a tlaId name) := by
  obtain ⟨l, accessKeys, hlocker, hstate⟩ := hdue.held
  have hregistry : l.registry = c.self := h.loyal.deployed a l accessKeys hlocker
  have hfree : c.flights.get c.nextId = none := h.freshIds.get_nextId
  let p : PendingReclaim := ⟨tlaId, name, wallet⟩
  have hcall : c.callOutcome caller 0 reserve (.reclaimFinalize tlaId name) =
      some (.withPromise c.registry (if c.registry.ftAllowlist.elems = [] then .finalizeDelete a p
        else .checkBalances a p c.registry.ftAllowlist.elems)) := by
    have hrun : c.registry.reclaimFinalize (c.callEnv caller 0 reserve) tlaId name =
        .ok (.withPromise c.registry (if c.registry.ftAllowlist.elems = [] then .finalizeDelete a p
          else .checkBalances a p c.registry.ftAllowlist.elems)) := by
      simp only [TlaRegistry.reclaimFinalize, bind_eq_ok, okOr_eq_ok,
        TlaRegistry.assertNotPaused_eq_ok, TlaRegistry.assertNotMother_eq_ok,
        AccountId.parse_eq_some]
      exact ⟨(), hdue.unpaused, a, hdue.account, (), hdue.unprotected, wallet,
        TlaRegistry.reclaimDestination_eq_ok.mpr hdue.reclaimable, rfl⟩
    simp only [callOutcome, Op.run, hrun]
    rfl
  refine .cons h.nativeTotal_lt hcall ?_ .nil
  refine ⟨hfree, ?_⟩
  split
  · exact inevitable_finalize (c := c.called 0 0) (p := p) hfree hlocker hregistry hstate
  · have hends := inevitable_reclaim (c := c.called 0 0) (p := p) hfree hlocker hregistry hstate
      hdue.account hdue.fits
    have hempty' : (c.called 0 0).Empty a c.registry.ftAllowlist.elems := hempty
    rwa [if_pos hempty'] at hends

end Chain

/-- From every reachable state where an account is due for a reclaim, whatever it holds and
whatever else is in flight, one sweep of each allowlisted token and one finalization, by any
caller and without a deposit, are accepted one after the other and clear the account, in
whatever order the receipts of each call arrive: the account is gone, every allowlisted token
it held is on the wallet of its entry, the name is free, and nothing else has changed. These
calls and the receipts of the chains they open are all there is in the run. -/
theorem clearance {g : Genesis} {c : Chain} (h : c.Reached g)
    {tlaId a wallet : AccountId} {name : Str} (hdue : c.Due tlaId a wallet name)
    (hne : wallet ≠ a) (caller : AccountId) (reserve : ℕ) :
    ∃ c', c.Served (Chain.clearingCalls caller tlaId name reserve c.registry.ftAllowlist.elems) c' ∧
      (∃ tr, Run Chain.step c tr c' ∧ (tr.map Transition.label).filter Label.isCall =
          Chain.clearingCalls caller tlaId name reserve c.registry.ftAllowlist.elems ∧
        ∀ t ∈ tr, t.label.isCall = false → ∃ id, c.nextId ≤ id ∧ Own id t.before t.label) ∧
      c'.accounts = Function.update c.accounts a .absent ∧
      c'.ftBalances = c.gathered a wallet c.registry.ftAllowlist.elems ∧
      c'.registry = c.registry.removeSubAccount tlaId (subAccountKey tlaId name) ∧
      c'.registry.isNameAvailable tlaId name = true ∧
      c'.balance = c.balance ∧ c'.flights = c.flights ∧ c'.now = c.now := by
  obtain ⟨nextId, hsweeps⟩ := @Chain.Due.sweeps c caller tlaId a wallet name reserve g h hdue hne
    c.registry.ftAllowlist.elems fun _ ht => ht
  have hempty : (c.cleared a wallet c.registry.ftAllowlist.elems nextId).Empty a
      c.registry.ftAllowlist.elems := by
    intro token htoken
    simp only [Chain.cleared, Chain.gathered, if_pos htoken, if_true]
  obtain ⟨tr, hrun, -⟩ := hsweeps.exists_run
  have hfinalize := @Chain.Due.finalize _ caller tlaId a wallet name reserve g (h.run hrun)
    (hdue.cleared _ _) hempty
  have hserved := hsweeps.append hfinalize
  refine ⟨_, hserved, hserved.exists_run, rfl, rfl, rfl, ?_, rfl, rfl, rfl⟩
  · have hfree : (c.registry.removeSubAccount tlaId (subAccountKey tlaId name)).subAccounts.get
        (subAccountKey tlaId name) = none := by
      rw [TlaRegistry.removeSubAccount, TlaRegistry.businessCountRelease_eq]
      exact LookupMap.get_remove_self _ _
    exact congrArg Bool.not (LookupMap.containsKey_eq_false.mpr hfree)

/-- Bob clears `n.hos`, which holds five units of the one token on the list. -/
theorem clearance_rich :
    ∃ c', Chain.Served Sample.rich
        [Sample.call Sample.bob 0 (.reclaimSweepFt Sample.tla Sample.name Sample.ft),
          Sample.finalize] c' ∧
      c'.accounts = Function.update Sample.rich.accounts Sample.sub .absent ∧
      c'.ftBalances Sample.ft Sample.alice = 5 ∧
      c'.registry.isNameAvailable Sample.tla Sample.name = true := by
  have hdestination : (Sample.rich.registry.reclaimDestination (Sample.rich.callEnv Sample.bob 0 0)
      Sample.tla (subAccountKey Sample.tla Sample.name)).toOption = some Sample.alice := by
    decide +kernel
  rw [toOption_eq_some] at hdestination
  have hlocker : Sample.rich.accounts Sample.sub = .locker Sample.locker [] := by decide +kernel
  have hdue : Sample.rich.Due Sample.tla Sample.sub Sample.alice Sample.name :=
    { unpaused := by decide +kernel
      account := by decide
      unprotected := by decide +kernel
      reclaimable := TlaRegistry.reclaimDestination_eq_ok.mp hdestination
      held := ⟨_, _, hlocker, rfl⟩
      fits := by unfold Chain.Fits; decide +kernel }
  obtain ⟨c', hserved, -, haccounts, hbalances, -, hname, -⟩ :=
    clearance (Sample.reached _ _) hdue (by decide) Sample.bob 0
  have hlist : Sample.rich.registry.ftAllowlist.elems = [Sample.ft] := by decide +kernel
  have hfive : Sample.rich.gathered Sample.sub Sample.alice Sample.rich.registry.ftAllowlist.elems
      Sample.ft Sample.alice = 5 := by decide +kernel
  have hcalls : Chain.clearingCalls Sample.bob Sample.tla Sample.name 0
      Sample.rich.registry.ftAllowlist.elems =
        [Sample.call Sample.bob 0 (.reclaimSweepFt Sample.tla Sample.name Sample.ft),
          Sample.finalize] := by
    rw [hlist]
    rfl
  exact ⟨c', hcalls ▸ hserved, haccounts, by rw [hbalances]; exact hfive, hname⟩

end HosTla
