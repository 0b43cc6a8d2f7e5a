-- SUMMARY: The settlement lock: no lock without a sale, and one sale at a time as long as its records are not purged.
import HosTla.Safety.Sellers

/-!
# The settlement lock

The lock of a key lives in its listing and its accepted offer. Every end of a sale takes
it off, so a lock never stays behind. It holds off a second sale as long as the record it
lives in is there. A reclaim or an export takes the record away under the sale.
-/

namespace HosTla

open Foundation

namespace TlaRegistry

/-- The listing or the accepted offer of the key is locked. -/
def SaleLocked (r : TlaRegistry) (key : Str) : Prop :=
  (∃ l ∈ r.listings.get key, l.settling = true) ∨
    ∃ o ∈ r.acceptedOffers.get key, o.settling = true

variable {r : TlaRegistry} {key : Str}

theorem not_locked_of_idle (h : r.assertSaleIdle key = .ok ()) : ¬ r.SaleLocked key := by
  obtain ⟨hlistings, hoffers⟩ := assertSaleIdle_eq_ok.mp h
  rintro (⟨l, hl, hsettling⟩ | ⟨o, ho, hsettling⟩)
  · rw [hlistings l hl] at hsettling; cases hsettling
  · rw [hoffers o ho] at hsettling; cases hsettling

theorem settling_lot {h : History} (hlocked : r.SaleLocked key) : (r.lot h key).Settling := by
  rcases hlocked with ⟨l, hl, hsettling⟩ | ⟨o, ho, hsettling⟩
  · exact ⟨⟨h.listed key, l.settling⟩, .inl (by simp [lot, Option.mem_def.mp hl]), hsettling⟩
  · exact ⟨⟨h.offered key, o.settling⟩, .inr (by simp [lot, Option.mem_def.mp ho]), hsettling⟩

theorem not_locked_clearSettling : ¬ (r.clearSettling key).SaleLocked key := by
  rintro (⟨l, hl, hsettling⟩ | ⟨o, ho, hsettling⟩)
  · simp only [clearSettling, LookupMap.get_modify_self, Option.mem_def,
      Option.map_eq_some_iff] at hl
    obtain ⟨l', -, rfl⟩ := hl
    cases hsettling
  · simp only [clearSettling, LookupMap.get_modify_self, Option.mem_def,
      Option.map_eq_some_iff] at ho
    obtain ⟨o', -, rfl⟩ := ho
    cases hsettling

theorem not_locked_of_none (hlisting : r.listings.get key = none)
    (hoffer : r.acceptedOffers.get key = none) : ¬ r.SaleLocked key := by
  rintro (⟨l, hl, -⟩ | ⟨o, ho, -⟩)
  · rw [hlisting] at hl; cases hl
  · rw [hoffer] at ho; cases ho

end TlaRegistry

/-! ## No lock without a sale -/

section

variable {r : TlaRegistry}

theorem not_locked_aborted (b : PendingBuy) : ¬ (r.aborted b).registry.SaleLocked b.key := by
  have hclear : ¬ (r.clearSettling b.key).SaleLocked b.key := TlaRegistry.not_locked_clearSettling
  exact hclear

/-- `on_sub_account_sold` always returns, and both records of its key are gone or idle. -/
theorem onSubAccountSold_unlocks (r : TlaRegistry) (promiseOk : Bool) (tlaId : AccountId)
    (name : Str) (buyer : AccountId) (price deposit : ℕ) :
    ∃ o, r.onSubAccountSold promiseOk tlaId name buyer price deposit = .ok o ∧
      o.promise = none ∧ ¬ o.registry.SaleLocked (subAccountKey tlaId name) := by
  unfold TlaRegistry.onSubAccountSold
  dsimp only
  split
  · split
    · exact ⟨_, rfl, rfl, TlaRegistry.not_locked_clearSettling⟩
    · refine ⟨_, rfl, ?_, TlaRegistry.not_locked_of_none (LookupMap.get_remove_self _ _)
        (LookupMap.get_remove_self _ _)⟩
      unfold Outcome.refundExcess
      split <;> rfl
  · exact ⟨_, rfl, rfl, TlaRegistry.not_locked_clearSettling⟩

/-- `on_buy_balances_checked` returns for all balance results and allowlists: it goes on
to the transfer, or both records of its key are gone or idle. -/
theorem onBuyBalancesChecked_unlocks (r : TlaRegistry) (results : List PromiseResult)
    (b : PendingBuy) (allowlist : List AccountId) :
    ∃ o, r.onBuyBalancesChecked results b allowlist = .ok o ∧
      ((o.registry = r ∧ ∃ a, a.chars = b.key ∧ o.promise = some (.settleTransfer a b)) ∨
        (o.promise = none ∧ ¬ o.registry.SaleLocked b.key)) := by
  unfold TlaRegistry.onBuyBalancesChecked
  dsimp only
  split
  · exact ⟨_, rfl, .inr ⟨rfl, not_locked_aborted b⟩⟩
  · split
    · rename_i a ha
      exact ⟨_, rfl, .inl ⟨rfl, a, AccountId.parse_eq_some.mp ha, rfl⟩⟩
    · exact ⟨_, rfl, .inr ⟨rfl, not_locked_aborted b⟩⟩

end

theorem System.Reached.unwedged {g : Genesis} {s : System} (h : s.Reached g) :
    s.market.Unwedged := by
  obtain ⟨tr, hrun⟩ := h
  induction hrun with
  | nil =>
    -- There are no records at first.
    rintro key ⟨x, hx | hx, -⟩ <;> cases hx
  | snoc hrun hstep ih =>
    have hfresh := (System.Reached.chain ⟨_, hrun⟩).freshIds
    obtain ⟨hallowed, hmarket⟩ := System.market_step hfresh hstep
    rw [hmarket]
    exact ih.apply hallowed

/-- No chain of a sale ends in a panic. -/
theorem Chain.Reached.selling_of_panicked {g : Genesis} {c : Chain} (h : c.Reached g) {id : ℕ}
    {fl : Flight} (hfl : c.flights.get id = some (.panicked fl)) : fl.selling = none := by
  refine h.flight (P := fun f => ∀ fl, f = .panicked fl → fl.selling = none)
    (fun c l i f _ harises fl hf => ?_) hfl fl rfl
  cases harises with
  | opened | handed =>
    rename_i p _ _ _
    cases p <;> cases hf
  -- The callbacks of a sale are not among those that panic.
  | panicked _ he =>
    cases hf
    exact Flight.selling_of_panic he
  | next _ _ hnext =>
    subst hf
    cases hnext with
    | sweep _ h => cases h
  | sweepAnswer h =>
    subst hf
    cases h
  | _ => cases hf

/-- A locked key has a sale in flight. Whatever the promises answer, the callbacks of a sale
return, and every end of a sale leaves both records of its key
absent or idle. -/
theorem sale_lock_not_wedged {g : Genesis} {s : System} (hs : s.Reached g) :
    (∀ key, s.chain.registry.SaleLocked key →
      ∃ id b, s.chain.saleOf id = some b ∧ b.key = key) ∧
    (∀ promiseOk tlaId name buyer price deposit, ∃ o,
      s.chain.registry.onSubAccountSold promiseOk tlaId name buyer price deposit = .ok o ∧
        o.promise = none ∧ ¬ o.registry.SaleLocked (subAccountKey tlaId name)) ∧
    (∀ results b allowlist, ∃ o,
      s.chain.registry.onBuyBalancesChecked results b allowlist = .ok o ∧
        ((o.registry = s.chain.registry ∧
            ∃ a, a.chars = b.key ∧ o.promise = some (.settleTransfer a b)) ∨
          (o.promise = none ∧ ¬ o.registry.SaleLocked b.key))) ∧
    ∀ id fl, s.chain.flights.get id = some (.panicked fl) → fl.selling = none := by
  refine ⟨?_, ?_, ?_, fun id fl hfl => hs.chain.selling_of_panicked hfl⟩
  · intro key hlocked
    obtain ⟨id, t, hsale⟩ := hs.unwedged key (TlaRegistry.settling_lot hlocked)
    simp only [System.market, Option.map_eq_some_iff, Prod.mk.injEq] at hsale
    obtain ⟨b, hb, hkey, -⟩ := hsale
    exact ⟨id, b, hb, hkey⟩
  · exact onSubAccountSold_unlocks s.chain.registry
  · exact onBuyBalancesChecked_unlocks s.chain.registry

/-- While Bob's purchase is in flight the listing is locked. -/
theorem sale_lock_not_wedged_bought :
    (∀ key, (Sample.historyAfter Sample.bought (by decide +kernel)).chain.registry.SaleLocked key →
      ∃ id b, (Sample.historyAfter Sample.bought (by decide +kernel)).chain.saleOf id = some b ∧
        b.key = key) ∧
    (Sample.historyAfter Sample.bought (by decide +kernel)).chain.registry.SaleLocked
      Sample.purchase.key := by
  refine ⟨(sale_lock_not_wedged (Sample.history_reached Sample.bought (by decide +kernel))).1, ?_⟩
  exact .inl ⟨⟨5, true⟩, by decide +kernel, rfl⟩

/-! ## One sale at a time -/

/-- The key whose records the call works on. -/
def Op.trades : Op → Option Str
  | .listSubAccount tlaId name _ | .unlistSubAccount tlaId name => some (subAccountKey tlaId name)
  | .acceptOffer tlaId name _ _ | .revokeOffer tlaId name => some (subAccountKey tlaId name)
  | .buySubAccount tlaId name _ => some (subAccountKey tlaId name)
  | _ => none

/-- The record the sale fills is there with its price, and it is locked: the offer, if it
was bound to this buyer at the call, or else the listing. -/
def System.Fills (s : System) (id : ℕ) (b : PendingBuy) : Prop :=
  ∃ rec, s.history.opened id = some rec ∧
    if rec.before.registry.offeredTo b.key b.buyer then
      s.chain.registry.acceptedOffers.get b.key = some ⟨b.buyer, b.price, true⟩
    else s.chain.registry.listings.get b.key = some ⟨b.price, true⟩

/-- The lock of a sale in flight excludes all other sales of the key. -/
structure System.Excludes (s : System) : Prop where
  unique : ∀ i j b b', s.chain.saleOf i = some b → s.chain.saleOf j = some b' →
    b.key = b'.key → i = j
  fills : ∀ i b, s.chain.saleOf i = some b → s.Fills i b
  rejects : ∀ i b, s.chain.saleOf i = some b → ∀ op : Op, op.trades = some b.key →
    ∀ env, ∃ e, op.run env s.chain.registry = .error e

/-- No reclaim or export that ends removes the records of a key while a sale of it is in
flight. -/
def System.KeepsLocks (s : System) : Label → Prop
  | .deliver id _ =>
    match s.chain.flights.get id with
    | some (.reclaimFinalized p true) => ∀ b, s.chain.InFlight Flight.selling b → b.key ≠ p.key
    | some (.exportSettled tlaId name true) =>
      (s.chain.registry.subAccounts.get (subAccountKey tlaId name)).isSome →
        ∀ b, s.chain.InFlight Flight.selling b → b.key ≠ subAccountKey tlaId name
    | _ => True
  | _ => True

instance (s : System) (l : Label) : Decidable (s.KeepsLocks l) := by
  delta System.KeepsLocks
  rcases l with _ | ⟨id, _⟩ | _
  · infer_instance
  · dsimp only
    rcases s.chain.flights.get id with _ | (_ | _) <;>
      first | infer_instance | (rename_i ok; rcases ok with _ | _ <;> infer_instance)
  all_goals infer_instance

/-! ### The records of a locked key -/

section

variable {env : Env} {r : TlaRegistry} {op : Op} {o : Outcome} {key : Str}

/-- A call that works on the records of a key finds them idle. -/
theorem Accepted.idle_of_trades (h : Accepted env r op o) (hkey : op.trades = some key) :
    r.assertSaleIdle key = .ok () := by
  cases h with
  | listSubAccount _ _ _ hidle => cases hkey; exact hidle
  | unlistSubAccount _ _ hidle => cases hkey; exact hidle
  | acceptOffer _ _ _ hidle => cases hkey; exact hidle
  | revokeOffer _ _ hidle => cases hkey; exact hidle
  | buySubAccount _ hidle => cases hkey; exact hidle
  | configured hop => cases op <;> cases hop <;> cases hkey
  | resale hop => cases op <;> cases hop <;> cases hkey
  | _ => cases hkey

/-- Calls work on the records of the key they trade only. -/
theorem Accepted.records (h : Accepted env r op o) (hkey : op.trades ≠ some key) :
    o.registry.listings.get key = r.listings.get key ∧
      o.registry.acceptedOffers.get key = r.acceptedOffers.get key := by
  have hne {k : Str} (htrades : op.trades = some k) : key ≠ k := by
    rintro rfl
    exact hkey htrades
  cases h with
  | listSubAccount => exact ⟨LookupMap.get_insert_ne (hne rfl), rfl⟩
  | unlistSubAccount => exact ⟨LookupMap.get_remove_ne (hne rfl), rfl⟩
  | acceptOffer => exact ⟨rfl, LookupMap.get_insert_ne (hne rfl)⟩
  | revokeOffer => exact ⟨rfl, LookupMap.get_remove_ne (hne rfl)⟩
  | buySubAccount _ _ _ hlock =>
    cases hlock with
    | offer => exact ⟨rfl, LookupMap.get_insert_ne (hne rfl)⟩
    | listing => exact ⟨LookupMap.get_insert_ne (hne rfl), rfl⟩
  | _ => exact ⟨rfl, rfl⟩

/-- A callback works on the records of the key it purges, or whose sale it ends. -/
theorem Settled.records {fl : Flight} (h : Settled r fl o)
    (hsale : ∀ b, fl.selling = some b → o.promise = none → key ≠ b.key)
    (hreclaim : ∀ p, fl = .reclaimFinalized p true → key ≠ p.key)
    (hexport : ∀ tlaId name, fl = .exportSettled tlaId name true →
      (r.subAccounts.get (subAccountKey tlaId name)).isSome → key ≠ subAccountKey tlaId name) :
    o.registry.listings.get key = r.listings.get key ∧
      o.registry.acceptedOffers.get key = r.acceptedOffers.get key := by
  have haborted {b : PendingBuy} (hne : key ≠ b.key) :
      (r.aborted b).registry.listings.get key = r.listings.get key ∧
        (r.aborted b).registry.acceptedOffers.get key = r.acceptedOffers.get key :=
    ⟨LookupMap.get_modify_ne hne, LookupMap.get_modify_ne hne⟩
  cases h with
  | reclaimed =>
    have hne := hreclaim _ rfl
    exact ⟨LookupMap.get_remove_ne hne, LookupMap.get_remove_ne hne⟩
  | exported hsub =>
    have hne := hexport _ _ rfl (by rw [hsub]; rfl)
    exact ⟨LookupMap.get_remove_ne hne, LookupMap.get_remove_ne hne⟩
  | saleBlocked => exact haborted (hsale _ rfl rfl)
  | saleVoid => exact haborted (hsale _ rfl rfl)
  | saleFailed => exact haborted (hsale _ rfl rfl)
  | sold =>
    have hne := hsale _ rfl rfl
    exact ⟨LookupMap.get_remove_ne hne, LookupMap.get_remove_ne hne⟩
  | _ => exact ⟨rfl, rfl⟩

/-- What `resolve_and_lock_sale` leaves is what the sale fills. -/
theorem Locked.fills {buyer : AccountId} {deposit price : ℕ} {listings : LookupMap Str Listing}
    {acceptedOffers : LookupMap Str AcceptedOffer}
    (h : Locked r key buyer deposit listings acceptedOffers price) :
    if r.offeredTo key buyer then acceptedOffers.get key = some ⟨buyer, price, true⟩
    else listings.get key = some ⟨price, true⟩ := by
  cases h with
  | offer hoffer hbuyer =>
    subst hbuyer
    simp [TlaRegistry.offeredTo, hoffer]
  | listing hother hlisting =>
    have hoffered : r.offeredTo key buyer = false := by
      unfold TlaRegistry.offeredTo
      cases hoffer : r.acceptedOffers.get key with
      | none => rfl
      | some offer => simp [hother offer hoffer]
    simp [hoffered]

end

namespace System

variable {s s' : System} {l : Label}

theorem Fills.locked {id : ℕ} {b : PendingBuy} (h : s.Fills id b) :
    s.chain.registry.SaleLocked b.key := by
  obtain ⟨rec, -, hfills⟩ := h
  split at hfills
  · exact .inr ⟨_, hfills, rfl⟩
  · exact .inl ⟨_, hfills, rfl⟩

theorem Fills.not_idle {id : ℕ} {b : PendingBuy} (h : s.Fills id b) :
    s.chain.registry.assertSaleIdle b.key ≠ .ok () :=
  fun hidle => TlaRegistry.not_locked_of_idle hidle h.locked

/-- The lock is what rejects the calls. -/
theorem Excludes.of_fills
    (unique : ∀ i j b b', s.chain.saleOf i = some b → s.chain.saleOf j = some b' →
      b.key = b'.key → i = j)
    (fills : ∀ i b, s.chain.saleOf i = some b → s.Fills i b) : s.Excludes := by
  refine ⟨unique, fills, ?_⟩
  intro i b hsale op hop env
  cases hrun : op.run env s.chain.registry with
  | error e => exact ⟨e, rfl⟩
  | ok o => exact absurd ((accepted_of_run hrun).idle_of_trades hop) (fills i b hsale).not_idle

/-- A sale in flight after a step was in flight before, or the step is the buy. -/
theorem saleOf_of_step (hstep : s.step l = some s') {i : ℕ} {b : PendingBuy}
    (hsale : s'.chain.saleOf i = some b) :
    s.chain.saleOf i = some b ∨
      ∃ predecessor deposit reserve op o p, l = .call predecessor deposit reserve op ∧
        i = s.chain.nextId ∧ s.chain.callOutcome predecessor deposit reserve op = some o ∧
        o.promise = some p ∧ p.flight.selling = some b := by
  obtain ⟨fl', hget, hb⟩ := Option.bind_eq_some_iff.mp hsale
  rcases (Chain.move_of_step (step_chain hstep)).carried Flight.selling_carried hget hb with
      ⟨fl, hfl, hb'⟩ | ⟨_, _, _, _, o, p, rfl, hi, hcall, -, hp, rfl⟩
  · exact .inl (by rw [Chain.saleOf_of_get hfl, hb'])
  · exact .inr ⟨_, _, _, _, o, p, rfl, hi, hcall, hp, hb⟩

/-- A step that keeps the locks keeps the records of a sale that stays in flight. -/
theorem Excludes.records (h : s.Excludes) (hstep : s.step l = some s') (hkeeps : s.KeepsLocks l)
    {i : ℕ} {b : PendingBuy} (hsale : s.chain.saleOf i = some b)
    (hsale' : s'.chain.saleOf i = some b) :
    s'.chain.registry.listings.get b.key = s.chain.registry.listings.get b.key ∧
      s'.chain.registry.acceptedOffers.get b.key = s.chain.registry.acceptedOffers.get b.key := by
  have hflight : s.chain.InFlight Flight.selling b := by
    obtain ⟨fl, hfl, hb⟩ := Option.bind_eq_some_iff.mp hsale
    exact ⟨i, fl, hfl, hb⟩
  have hchain := step_chain hstep
  generalize hc' : s'.chain = c' at hchain hsale' ⊢
  cases Chain.move_of_step hchain with
  | accepted _ _ _ ho =>
    refine ho.records fun hop => ?_
    exact (h.fills i b hsale).not_idle (ho.idle_of_trades hop)
  | @settled id ok fl o hfl _ ho =>
    simp only [KeepsLocks, hfl] at hkeeps
    refine ho.records ?_ ?_ ?_
    -- Another sale of the key does not exist, and this one has not ended.
    · intro b' hb' hp hkey
      have hid : i = id := h.unique i id b b' hsale (by rw [Chain.saleOf_of_get hfl, hb']) hkey
      rw [hid, Chain.saleOf_settle_self, hp] at hsale'
      cases hsale'
    · rintro p rfl
      exact hkeeps b hflight
    · rintro tlaId name rfl hsome
      exact hkeeps hsome b hflight
  | advanced _ _ _ hadvance =>
    rw [(Chain.advanced_of_advance hadvance).registry]
    exact ⟨rfl, rfl⟩
  | answered _ hanswer =>
    rw [hanswer.registry]
    exact ⟨rfl, rfl⟩
  | _ => exact ⟨rfl, rfl⟩

theorem Excludes.step (h : s.Excludes) (hfresh : s.chain.FreshIds) (hstep : s.step l = some s')
    (hkeeps : s.KeepsLocks l) : s'.Excludes := by
  -- The sale of an accepted buy locks a key that no sale in flight had locked.
  have hnew {i : ℕ} {b : PendingBuy} {predecessor : AccountId} {deposit reserve : ℕ} {op : Op}
      {o : Outcome} {p : Promise}
      (hcall : s.chain.callOutcome predecessor deposit reserve op = some o)
      (hp : o.promise = some p) (hb : p.flight.selling = some b) {b' : PendingBuy}
      (hsale : s.chain.saleOf i = some b') : b'.key ≠ b.key := by
    obtain ⟨-, haccepted⟩ := Chain.accepted_of_callOutcome hcall
    obtain ⟨seller, -, -, -, hidle, -⟩ := haccepted.buy_of_selling hp hb
    intro hkey
    rw [← hkey] at hidle
    exact (h.fills i b' hsale).not_idle hidle
  refine .of_fills ?_ ?_
  · intro i j b b' hi hj hkey
    rcases saleOf_of_step hstep hi with hi | ⟨_, _, _, _, o, p, rfl, rfl, hcall, hp, hb⟩
    · rcases saleOf_of_step hstep hj with hj | ⟨_, _, _, _, o, p, rfl, rfl, hcall, hp, hb⟩
      · exact h.unique i j b b' hi hj hkey
      · exact absurd hkey (hnew hcall hp hb hi)
    · rcases saleOf_of_step hstep hj with hj | ⟨_, _, _, _, -, -, -, hid, -⟩
      · exact absurd hkey.symm (hnew hcall hp hb hj)
      · exact hid.symm
  · intro i b hi'
    rcases saleOf_of_step hstep hi' with hi | ⟨predecessor, deposit, reserve, op, o, p, rfl, rfl,
      hcall, hp, hb⟩
    · obtain ⟨rec, hopened, hfills⟩ := h.fills i b hi
      obtain ⟨hlisting, hoffer⟩ := h.records hstep hkeeps hi hi'
      have hid : i < s.chain.nextId := by
        obtain ⟨fl, hfl, -⟩ := Option.bind_eq_some_iff.mp hi
        exact hfresh _ _ hfl
      exact ⟨rec, (opened_of_step hstep hid).trans hopened, by rw [hlisting, hoffer]; exact hfills⟩
    · obtain ⟨-, haccepted⟩ := Chain.accepted_of_callOutcome hcall
      obtain ⟨seller, -, -, -, -, -, hlock⟩ := haccepted.buy_of_selling hp hb
      cases eq_of_accepted hstep hcall
      exact ⟨⟨s.chain, s.history.rentals, predecessor, deposit, reserve, op⟩,
        Function.update_self _ _ _, hlock.fills⟩

/-- A purge under a sale takes the record the sale fills. -/
theorem not_excludes_of_purge {id : ℕ} {ok : Bool} {fl : Flight}
    (hfl : s.chain.flights.get id = some fl) (hstep : s.step (.deliver id ok) = some s')
    (hselling : fl.selling = none) {key : Str}
    (hpurge : ∀ o, Settled s.chain.registry fl o →
      o.registry.listings.get key = none ∧ o.registry.acceptedOffers.get key = none)
    (hcallback : ∃ o, fl.callback s.chain.registry = some (.ok o)) {b : PendingBuy}
    (hflight : s.chain.InFlight Flight.selling b) (hkey : b.key = key) : ¬ s'.Excludes := by
  intro h
  obtain ⟨i, fl', hget, hb⟩ := hflight
  have hi : i ≠ id := by
    rintro rfl
    cases hfl.symm.trans hget
    rw [hselling] at hb
    cases hb
  obtain ⟨o, ho⟩ := hcallback
  cases delivered_of_step hfl hstep with
  | panicked he => rw [ho] at he; cases he
  | advanced hnone => rw [ho] at hnone; cases hnone
  | settled ho hchain =>
    have hsale : s'.chain.saleOf i = some b := by
      rw [hchain, Chain.saleOf_settle_ne hi, Chain.saleOf_of_get hget, hb]
    have hlocked := (h.fills i b hsale).locked
    rw [hchain, hkey] at hlocked
    obtain ⟨hlisting, hoffer⟩ := hpurge _ ho
    exact TlaRegistry.not_locked_of_none hlisting hoffer hlocked

theorem keepsLocks_of_excludes (hstep : s.step l = some s') (h : s'.Excludes) :
    s.KeepsLocks l := by
  unfold KeepsLocks
  split
  · split
    · rename_i id ok p hfl
      intro b hflight hkey
      refine not_excludes_of_purge hfl hstep rfl ?_ ⟨_, rfl⟩ hflight hkey h
      intro o ho
      cases ho with
      | reclaimed => exact ⟨LookupMap.get_remove_self _ _, LookupMap.get_remove_self _ _⟩
    · rename_i id ok tlaId name hfl
      intro hsome b hflight hkey
      obtain ⟨sub, hsub⟩ := Option.isSome_iff_exists.mp hsome
      have hcallback : (Flight.exportSettled tlaId name true).callback s.chain.registry =
          some (.ok (.of (s.chain.registry.removeSubAccount tlaId (subAccountKey tlaId name)))) := by
        simp [Flight.callback, TlaRegistry.onExportSettled, LookupMap.containsKey, hsub, pure,
          Except.pure]
      refine not_excludes_of_purge hfl hstep rfl ?_ ⟨_, hcallback⟩ hflight hkey h
      intro o ho
      cases ho with
      | exported => exact ⟨LookupMap.get_remove_self _ _, LookupMap.get_remove_self _ _⟩
      | exportedAlready hnone => rw [hsub] at hnone; cases hnone
    · trivial
  · trivial

end System

/-- All along a run the lock of a sale in flight excludes every other sale of its key,
exactly if the run removes no records of a key while a sale of it is in flight. -/
theorem sales_excluded_iff {g : Genesis} {tr : List (Transition System Label)} {s : System}
    (hrun : Run System.step (System.init g) tr s) :
    (∀ t ∈ tr, t.after.Excludes) ↔ Meets System.KeepsLocks tr := by
  refine hrun.exact ?_ ?_
  · refine .of_fills ?_ ?_
    · intro i j b b' hi
      cases hi
    · intro i b hi
      cases hi
  · intro s l s' hs h hstep
    exact ⟨System.keepsLocks_of_excludes hstep, h.step (System.Reached.chain hs).freshIds hstep⟩

namespace Sample

def dave : AccountId := ⟨['d', 'a'], by decide⟩

/-- Carol rents and lists the name while Bob's sale travels, and Dave buys it. -/
def boughtTwice : List Label :=
  boughtExported ++ [rent carol, call carol 1 (.listSubAccount tla name 5),
    call dave 5 (.buySubAccount tla name otherKey)]

end Sample

/-- Two sales of one key are in flight. -/
theorem two_sales_in_flight :
    ∃ s : System, s.Reached Sample.genesis ∧
      (s.chain.saleOf 4).map PendingBuy.buyer = some Sample.bob ∧
      (s.chain.saleOf 9).map PendingBuy.buyer = some Sample.dave ∧
      (s.chain.saleOf 4).map PendingBuy.key = (s.chain.saleOf 9).map PendingBuy.key ∧
      ¬ s.Excludes := by
  have hkeys : ((Sample.historyAfter Sample.boughtTwice (by decide +kernel)).chain.saleOf 4).map
      PendingBuy.key = ((Sample.historyAfter Sample.boughtTwice
        (by decide +kernel)).chain.saleOf 9).map PendingBuy.key := by decide +kernel
  refine ⟨Sample.historyAfter Sample.boughtTwice (by decide +kernel), Sample.history_reached _ _,
    by decide +kernel, by decide +kernel, hkeys, ?_⟩
  intro h
  have hsome : ((Sample.historyAfter Sample.boughtTwice
      (by decide +kernel)).chain.saleOf 4).isSome = true := by decide +kernel
  obtain ⟨b, hb⟩ := Option.isSome_iff_exists.mp hsome
  rw [hb, Option.map_some] at hkeys
  obtain ⟨b', hb', hkey⟩ := Option.map_eq_some_iff.mp hkeys.symm
  exact absurd (h.unique 4 9 b b' hb hb' hkey.symm) (by decide)

/-- Bob's purchase runs to its end. -/
theorem sales_excluded_iff_bought :
    ∃ tr, tr.map Transition.label = Sample.bought ++ [.deliver 4 true] ∧
      ((∀ t ∈ tr, t.after.Excludes) ↔ Meets System.KeepsLocks tr) := by
  obtain ⟨tr, hrun, hlabels⟩ :=
    Sample.exists_history_run (Sample.bought ++ [.deliver 4 true]) (by decide +kernel)
  exact ⟨tr, hlabels, sales_excluded_iff hrun⟩

end HosTla
