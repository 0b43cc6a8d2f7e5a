-- SUMMARY: A sale that is settled went through on registry and locker, or on neither.
import HosTla.Chain.Receipts
import HosTla.Safety.Sellers

/-!
# Settlements

The locker takes the key of the buyer one message before the registry takes over the
ownership. In between the entry may go, by an export or a reclaim. The callback then
returns the deposit and leaves the key, or it takes the account from a later renter. The
account itself may go too, by a deletion that was on its way. The other gap is an account
that has left its locker and answers the transfer as it likes.
-/

namespace HosTla

open Foundation

/-! ## The two outcomes -/

/-- The account runs a locker that took the key of the buyer for this sale and still has it,
the buyer has taken the place of the owner that had the entry when the buy was accepted, and
the deposit has gone to that owner, the revenue and the buyer. -/
structure SoldTo (s s' : System) (id : ℕ) (b : PendingBuy) : Prop where
  locker : ∃ a l keys, a.chars = b.key ∧ s.history.swapped id = some (a, b.newOwnerKey) ∧
    s'.chain.accounts a = .locker l keys ∧ l.ownerKey = b.newOwnerKey
  settled : ∃ rec sub₀ sub commission, s.history.opened id = some rec ∧
    rec.before.registry.subAccounts.get b.key = some sub₀ ∧
    s.history.rentals b.key = rec.rentals b.key ∧
    s.chain.registry.subAccounts.get b.key = some sub ∧ sub.owner = sub₀.owner ∧
    s'.chain.registry.subAccounts.get b.key =
      some { sub with owner := b.buyer, mainWallet := b.buyer } ∧
    commission ≤ b.price ∧ b.price ≤ b.deposit ∧
    s'.chain.registry.totalRevenue = s.chain.registry.totalRevenue + commission ∧
    s'.history.credits = s.history.credits ++
      (sub₀.owner, b.price - commission) :: excessCredit b.buyer (b.deposit - b.price)
  listing : s'.chain.registry.listings.get b.key = none
  offer : s'.chain.registry.acceptedOffers.get b.key = none

/-- The buyer has the whole deposit back, no entry has changed, and the locker has not
taken a key for this sale. -/
structure AbortedFor (s s' : System) (id : ℕ) (b : PendingBuy) : Prop where
  credits : s'.history.credits = s.history.credits ++ [(b.buyer, b.deposit)]
  entries : s'.chain.registry.subAccounts = s.chain.registry.subAccounts
  unswapped : s.history.swapped id = none

/-- A sale whose callback is told that the locker took the key. -/
def Flight.transferred : Flight → Option PendingBuy
  | .sold b true => some b
  | _ => none

/-- No name is rented out while a sale of it is in flight. The account that is asked to
transfer runs its locker, and is neither deleted nor given other code before the callback.
A callback that was told of a transfer finds the entry, and the revenue has room for the
commission. -/
def System.KeepsSettlements (s : System) : Label → Prop
  | .call predecessor deposit reserve op => s.KeepsSellers (.call predecessor deposit reserve op)
  | .deliver id ok =>
    match s.chain.flights.get id with
    | some (.transferCall subAccount _) => ok = true → s.chain.accounts subAccount ≠ .foreign
    | some (.deleteAccount subAccount _ _) =>
      ok = true → ∀ b, s.chain.InFlight Flight.transferred b → b.key ≠ subAccount.chars
    | some (.sold b true) =>
      s.chain.registry.subAccounts.containsKey b.key = true ∧
        s.chain.registry.totalRevenue + s.chain.registry.resaleCommission b.price ≤ u128Max
    | _ => True
  | .foreign account _ =>
    ∀ b, s.chain.InFlight Flight.transferred b → b.key ≠ account.chars
  | _ => True

instance (s : System) (l : Label) : Decidable (s.KeepsSettlements l) := by
  delta System.KeepsSettlements
  rcases l with _ | ⟨id, _⟩ | _
  · infer_instance
  · dsimp only
    rcases s.chain.flights.get id with _ | (_ | _) <;>
      first | infer_instance | (rename_i ok; rcases ok with _ | _ <;> infer_instance)
  all_goals infer_instance

theorem System.KeepsSettlements.keepsSellers {s : System} {l : Label} (h : s.KeepsSettlements l) :
    s.KeepsSellers l := by
  cases l with
  | call => exact h
  | _ => trivial

/-! ## Key swaps -/

/-- What the record of key swaps says about the sales in flight. -/
structure System.Swaps (s : System) : Prop where
  fresh : ∀ id, s.chain.nextId ≤ id → s.history.swapped id = none
  pending : ∀ id fl b, s.chain.flights.get id = some fl → fl.selling = some b →
    fl ≠ .sold b true → s.history.swapped id = none
  answered : ∀ id b, s.chain.flights.get id = some (.sold b true) →
    ∃ a, a.chars = b.key ∧ s.history.swapped id = some (a, b.newOwnerKey)

/-- Only a transfer adds to the record of swaps. -/
theorem History.swapped_recordReceipt {h : History} {c : Chain} {id : ℕ} {ok : Bool} (fl : Flight)
    (hne : ∀ a b, fl ≠ .transferCall a b) :
    (h.recordReceipt c id ok fl).swapped = h.swapped := by
  cases fl with
  | refundTransfer => simp only [recordReceipt]; split <;> rfl
  | transferCall a b => exact absurd rfl (hne a b)
  | _ => rfl

namespace System

variable {s s' : System}

/-- A record of swaps that is kept, with flights that are old, or new and not settled. -/
theorem Swaps.of_flights (h : s.Swaps) (hswapped : s'.history.swapped = s.history.swapped)
    (hnext : s.chain.nextId ≤ s'.chain.nextId)
    (hsale : ∀ id fl b, s'.chain.flights.get id = some fl → fl.selling = some b →
      s.chain.flights.get id = some fl ∨ s.history.swapped id = none ∧ fl ≠ .sold b true) :
    s'.Swaps := by
  constructor
  · intro id hid
    rw [hswapped]
    exact h.fresh id (le_trans hnext hid)
  · intro id fl b hget hb hne
    rw [hswapped]
    rcases hsale id fl b hget hb with hget | ⟨hnone, -⟩
    · exact h.pending id fl b hget hb hne
    · exact hnone
  · intro id b hget
    rw [hswapped]
    rcases hsale id _ b hget rfl with hget | ⟨-, hne⟩
    · exact h.answered id b hget
    · exact absurd rfl hne

theorem Swaps.accepted (h : s.Swaps) {deposit : ℕ} {o : Outcome}
    (hchain : s'.chain = s.chain.accept deposit o)
    (hswapped : s'.history.swapped = s.history.swapped) : s'.Swaps := by
  refine h.of_flights hswapped (by rw [hchain]; exact Nat.le_succ _) ?_
  intro id fl b hget hb
  rw [hchain] at hget
  rcases Chain.get_accept hget with ⟨p, rfl, hp, rfl⟩ | hget
  · refine .inr ⟨h.fresh _ (Nat.le_refl _), ?_⟩
    cases p <;> simp [Promise.flight]
  · exact .inl hget

theorem Swaps.settled (h : s.Swaps) {id : ℕ} {fl : Flight} {o : Outcome}
    (hfl : s.chain.flights.get id = some fl) (hchain : s'.chain = s.chain.settle id o)
    (hswapped : s'.history.swapped = s.history.swapped)
    (ho : Settled s.chain.registry fl o) : s'.Swaps := by
  refine h.of_flights hswapped (by rw [hchain]; exact Nat.le_refl _) ?_
  intro i fl' b hget hb
  rw [hchain] at hget
  rcases Chain.get_settle hget with ⟨p, rfl, hp, rfl⟩ | ⟨-, hget⟩
  · refine .inr ⟨h.pending _ _ _ hfl (Flight.selling_carried.callback ho hp hb) ?_, ?_⟩
    · rintro rfl
      cases ho <;> cases hp
    · cases p <;> simp [Promise.flight]
  · exact .inl hget

theorem Swaps.panicked (h : s.Swaps) {id : ℕ} {fl : Flight}
    (hchain : s'.chain = s.chain.setFlight id (.panicked fl))
    (hswapped : s'.history.swapped = s.history.swapped) : s'.Swaps := by
  refine h.of_flights hswapped (by rw [hchain]; exact Nat.le_refl _) ?_
  intro i fl' b hget hb
  rw [hchain] at hget
  rcases LookupMap.get_of_get_insert hget with ⟨-, rfl⟩ | ⟨-, hget⟩
  · cases hb
  · exact .inl hget

theorem Swaps.answered_query (h : s.Swaps) {id : ℕ} {fl : Flight}
    (hfl : s.chain.flights.get id = some fl) (hanswer : s.chain.Answered id fl s'.chain)
    (hswapped : s'.history.swapped = s.history.swapped) : s'.Swaps := by
  refine h.of_flights hswapped (by rw [hanswer.nextId]) ?_
  intro i fl' b hget hb
  generalize s'.chain = c' at hanswer hget
  cases hanswer with
  | reclaim =>
    rcases LookupMap.get_of_get_insert hget with ⟨-, rfl⟩ | ⟨-, hget⟩
    · cases hb
    · exact .inl hget
  | buy =>
    rcases LookupMap.get_of_get_insert hget with ⟨rfl, rfl⟩ | ⟨-, hget⟩
    · exact .inr ⟨h.pending _ _ _ hfl hb (by simp), by simp⟩
    · exact .inl hget
  | sweep hs hs' =>
    rcases LookupMap.get_of_get_insert hget with ⟨-, rfl⟩ | ⟨-, hget⟩
    · rw [Flight.isSweep_selling hs'] at hb; cases hb
    · exact .inl hget

/-- A receipt outside the registry other than a transfer. -/
theorem Swaps.advanced (h : s.Swaps) {id : ℕ} {ok : Bool} {fl : Flight}
    (hfl : s.chain.flights.get id = some fl) (hadvance : s.chain.advance id ok fl = some s'.chain)
    (hswapped : s'.history.swapped = s.history.swapped)
    (htransfer : ∀ a b, fl ≠ .transferCall a b) : s'.Swaps := by
  have hadv := Chain.advanced_of_advance hadvance
  -- No other receipt leads on to a stage of a sale.
  have hnone : ∀ {self fl'} {back : Option (AccountId × ℕ)},
      fl.Next self (some fl') back → fl'.selling = none := by
    intro self fl' back hnext
    cases hnext with
    | transferred => exact absurd rfl (htransfer _ _)
    | sweep _ hs => exact Flight.isSweep_selling hs
    | _ => rfl
  refine h.of_flights hswapped hadv.nextId ?_
  intro i fl' b hget hb
  rcases hadv.get hget with ⟨-, back, hnext⟩ | ⟨-, hget⟩ | ⟨-, -, _, _, rfl⟩
  · rw [hnone hnext] at hb; cases hb
  · exact .inl hget
  · cases hb

/-- A transfer that the locker does not take is answered with a failure. -/
theorem Swaps.refused (h : s.Swaps) {id : ℕ} {a : AccountId} {b : PendingBuy}
    (hfl : s.chain.flights.get id = some (.transferCall a b))
    (hchain : s'.chain = s.chain.setFlight id (.sold b false))
    (hswapped : s'.history.swapped = s.history.swapped) : s'.Swaps := by
  refine h.of_flights hswapped (by rw [hchain]; exact Nat.le_refl _) ?_
  intro i fl' b' hget hb
  rw [hchain] at hget
  rcases LookupMap.get_of_get_insert hget with ⟨rfl, rfl⟩ | ⟨-, hget⟩
  · exact .inr ⟨h.pending _ _ _ hfl rfl (by simp), by simp⟩
  · exact .inl hget

/-- A transfer that the locker takes is recorded and answered with a success. -/
theorem Swaps.taken (h : s.Swaps) {g : Genesis} (hs : s.chain.Reached g) {id : ℕ} {a : AccountId}
    {b : PendingBuy} {account : Account}
    (hfl : s.chain.flights.get id = some (.transferCall a b))
    (hchain : s'.chain = (s.chain.setFlight id (.sold b true)).setAccount a account)
    (hswapped : s'.history.swapped =
      Function.update s.history.swapped id (some (a, b.newOwnerKey))) : s'.Swaps := by
  have hget_cases : ∀ {i fl'}, s'.chain.flights.get i = some fl' →
      (i = id ∧ fl' = .sold b true) ∨ i ≠ id ∧ s.chain.flights.get i = some fl' := by
    intro i fl' hget
    rw [hchain] at hget
    exact LookupMap.get_of_get_insert hget
  constructor
  · intro i hi
    have hid := hs.freshIds _ _ hfl
    have hnext : s'.chain.nextId = s.chain.nextId := by rw [hchain]; rfl
    rw [hswapped, Function.update_of_ne (by omega)]
    exact h.fresh i (by omega)
  · intro i fl' b' hget hb hne
    rcases hget_cases hget with ⟨-, rfl⟩ | ⟨hi, hget⟩
    · cases hb
      exact absurd rfl hne
    · rw [hswapped, Function.update_of_ne hi]
      exact h.pending i fl' b' hget hb hne
  · intro i b' hget
    rcases hget_cases hget with ⟨rfl, hflight⟩ | ⟨hi, hget⟩
    · cases hflight
      exact ⟨a, hs.aimed hfl, by rw [hswapped, Function.update_self]⟩
    · rw [hswapped, Function.update_of_ne hi]
      exact h.answered i b' hget

/-- A transfer that reaches no account under other code. -/
theorem Swaps.transferred (h : s.Swaps) {g : Genesis} (hs : s.chain.Reached g) {id : ℕ} {ok : Bool}
    {a : AccountId} {b : PendingBuy} (hfl : s.chain.flights.get id = some (.transferCall a b))
    (hchain : s'.chain = s.chain.advanceTransferCall id ok a b)
    (hhist : s'.history = s.history.recordReceipt s.chain id ok (.transferCall a b))
    (hlocker : ok = true → s.chain.accounts a ≠ .foreign) : s'.Swaps := by
  simp only [Chain.advanceTransferCall] at hchain
  simp only [History.recordReceipt] at hhist
  cases htransfer : s.chain.transferredLocker a b.newOwnerKey with
  | none =>
    -- Without a locker only foreign code could have answered with a success.
    have hanswer : (ok && decide (s.chain.accounts a = .foreign)) = false := by
      cases ok with
      | false => rfl
      | true => simpa using hlocker rfl
    rw [htransfer] at hchain hhist
    simp only [hanswer] at hchain
    exact h.refused hfl hchain (by rw [hhist]; simp)
  | some account =>
    rw [htransfer] at hchain hhist
    cases ok with
    | false => exact h.refused hfl (by simpa using hchain) (by rw [hhist]; simp)
    | true =>
      exact h.taken hs hfl hchain (by rw [hhist]; simp)

theorem Swaps.step (h : s.Swaps) {g : Genesis} (hs : s.chain.Reached g) {l : Label}
    (hstep : s.step l = some s') (hkeeps : s.KeepsSettlements l) : s'.Swaps := by
  have hsame (hflights : s'.chain.flights = s.chain.flights)
      (hnext : s'.chain.nextId = s.chain.nextId)
      (hswapped : s'.history.swapped = s.history.swapped) : s'.Swaps := by
    refine h.of_flights hswapped (le_of_eq hnext.symm) ?_
    intro i fl b hget _
    exact .inl (hflights ▸ hget)
  cases moved_of_step hstep with
  | accepted => exact h.accepted rfl rfl
  | settled hfl _ ho => exact h.settled hfl rfl rfl ho
  | panicked _ _ he =>
    refine h.panicked rfl (History.swapped_recordReceipt _ ?_)
    rintro a b rfl
    cases he
  | @advanced id ok fl c' hfl _ _ hadvance =>
    by_cases htransfer : ∃ a b, fl = .transferCall a b
    · obtain ⟨a, b, rfl⟩ := htransfer
      rw [KeepsSettlements, hfl] at hkeeps
      exact h.transferred hs hfl (Option.some.inj hadvance).symm rfl hkeeps
    · have hne : ∀ a b, fl ≠ .transferCall a b := fun a b hfl => htransfer ⟨a, b, hfl⟩
      exact h.advanced hfl hadvance (History.swapped_recordReceipt _ hne) hne
  | answered hfl hanswer => exact h.answered_query hfl hanswer rfl
  | _ => exact hsame rfl rfl rfl

theorem swaps_of_run {g : Genesis} {tr : List (Transition System Label)}
    (hrun : Run System.step (System.init g) tr s) (hkeeps : Meets KeepsSettlements tr) :
    s.Swaps := by
  refine hrun.guarded (I := Swaps) ?_ ?_ hkeeps
  · refine ⟨fun _ _ => rfl, ?_, ?_⟩
    · intro id fl b hget
      cases hget
    · intro id b hget
      cases hget
  · intro s l s' hs hswaps hkeeps hstep
    exact hswaps.step (System.Reached.chain hs) hstep hkeeps

end System

/-! ## Lockers between transfer and callback -/

namespace Chain

/-- A locker keeps its owner key in a receipt that neither deletes its account nor transfers
it. -/
theorem Receipt.ownerKey {c c' : Chain} {id : ℕ} {ok : Bool} {fl : Flight}
    (h : c.Receipt id ok fl c') {a : AccountId} {l : SubAccountLocker} {keys : List PublicKey}
    (hlocker : c.accounts a = .locker l keys)
    (hdelete : ∀ b p sent, fl = .deleteAccount b p sent → ok = true → b ≠ a)
    (htransfer : ∀ b p, fl = .transferCall b p → b ≠ a) :
    ∃ l' keys', c'.accounts a = .locker l' keys' ∧ l'.ownerKey = l.ownerKey := by
  -- A receipt that sets the account `b`, seen from `a`.
  have hset (c₀ : Chain) {b : AccountId} {l₀ l' : SubAccountLocker} {keys₀ keys' : List PublicKey}
      (hsame : c₀.accounts = c.accounts) (hl₀ : c.accounts b = .locker l₀ keys₀)
      (hkey : l'.ownerKey = l₀.ownerKey) :
      ∃ l'' keys'', (c₀.setAccount b (.locker l' keys')).accounts a = .locker l'' keys'' ∧
        l''.ownerKey = l.ownerKey := by
    by_cases heq : a = b
    · subst heq
      cases hlocker.symm.trans hl₀
      exact ⟨_, _, accounts_setAccount_self _ _ _, hkey⟩
    · exact ⟨l, keys, by rw [accounts_setAccount_ne heq, hsame, hlocker], rfl⟩
  have hother (c₀ : Chain) {b : AccountId} {state : Account} (hsame : c₀.accounts = c.accounts)
      (hne : b ≠ a) :
      ∃ l'' keys'', (c₀.setAccount b state).accounts a = .locker l'' keys'' ∧
        l''.ownerKey = l.ownerKey :=
    ⟨l, keys, by rw [accounts_setAccount_ne hne.symm, hsame, hlocker], rfl⟩
  cases h with
  | created habsent =>
    refine hother _ rfl ?_
    rintro rfl
    rw [hlocker] at habsent
    cases habsent
  | deleted hok => exact hother _ rfl (hdelete _ _ _ rfl hok)
  | exportAccepted hold => exact hset (c.setFlight id _) rfl hold rfl
  | keyAdded _ hold => exact hset _ rfl hold rfl
  | @exportResolved _ _ _ added _ _ hold => exact hset _ rfl hold (by cases added <;> rfl)
  | transferred => exact hother _ rfl (htransfer _ _ rfl)
  | _ => exact ⟨l, keys, hlocker, rfl⟩

end Chain

namespace System

variable {s s' : System} {l : Label}

/-- Every sale that waits for the callback of a transfer has its key on the locker. -/
def KeysInPlace (s : System) : Prop :=
  ∀ id b, s.chain.flights.get id = some (.sold b true) →
    ∃ a l keys, a.chars = b.key ∧ s.chain.accounts a = .locker l keys ∧
      l.ownerKey = b.newOwnerKey

theorem eq_of_saleOf (hheld : s.market.Held) {i j : ℕ} {b b' : PendingBuy}
    (hi : s.chain.saleOf i = some b) (hj : s.chain.saleOf j = some b') (hkey : b.key = b'.key) :
    i = j := by
  have hi' : s.market.sales i =
      some (b.key, (s.history.opened i).bind fun r => r.tenancy b.key) := by
    simp [market, hi]
  have hj' : s.market.sales j =
      some (b.key, (s.history.opened j).bind fun r => r.tenancy b.key) := by
    simp [market, hj, hkey]
  exact hheld.unique hi' hj'

/-- The locker of such a sale keeps its key in every other move. -/
theorem locker_of_move {g : Genesis} {c' : Chain} (hs : s.chain.Reached g) (hheld : s.market.Held)
    (hmove : s.chain.Move l c') (hkeeps : s.KeepsSettlements l) {id : ℕ} {b : PendingBuy}
    (hfl : s.chain.flights.get id = some (.sold b true)) {a : AccountId} (ha : a.chars = b.key)
    {locker : SubAccountLocker} {keys : List PublicKey}
    (hlocker : s.chain.accounts a = .locker locker keys) :
    ∃ l' keys', c'.accounts a = .locker l' keys' ∧ l'.ownerKey = locker.ownerKey := by
  have hflight : s.chain.InFlight Flight.transferred b := ⟨id, _, hfl, rfl⟩
  cases hmove with
  | @advanced i ok fl _ hget _ _ hadvance =>
    refine (Chain.receipt_of_advance hadvance).ownerKey hlocker ?_ ?_
    · rintro a' p sent rfl hok rfl
      rw [KeepsSettlements, hget] at hkeeps
      exact hkeeps hok b hflight ha.symm
    · rintro a' b' rfl rfl
      -- A second sale of the key would have to be this one.
      have haimed : a'.chars = b'.key := hs.aimed hget
      obtain rfl : id = i := eq_of_saleOf hheld (Chain.saleOf_of_get hfl)
        (Chain.saleOf_of_get hget) (ha.symm.trans haimed)
      rw [hfl] at hget
      cases hget
  | answered _ hanswer => cases hanswer <;> exact ⟨locker, keys, hlocker, rfl⟩
  | @foreign account =>
    have hne : a ≠ account := by
      rintro rfl
      exact hkeeps b hflight ha.symm
    exact ⟨locker, keys, (Chain.accounts_setAccount_ne hne).trans hlocker, rfl⟩
  | _ => exact ⟨locker, keys, hlocker, rfl⟩

/-- A transfer that is answered with a success has put the key on the locker. -/
theorem locker_of_transfer {g : Genesis} {c' : Chain} (hs : s.chain.Reached g) {id : ℕ} {ok : Bool}
    {a : AccountId} {b : PendingBuy} (hfl : s.chain.flights.get id = some (.transferCall a b))
    (hsold : c'.flights.get id = some (.sold b true))
    (hreceipt : s.chain.Receipt id ok (.transferCall a b) c')
    (hlocker : ok = true → s.chain.accounts a ≠ .foreign) :
    ∃ a l keys, a.chars = b.key ∧ c'.accounts a = .locker l keys ∧ l.ownerKey = b.newOwnerKey := by
  cases hreceipt with
  | @transferred _ _ l keys =>
    exact ⟨a, _, keys, hs.aimed hfl, Chain.accounts_setAccount_self _ _ _, rfl⟩
  | @transferAnswered _ _ answer hanswer =>
    have hflight : Flight.sold b answer = .sold b true :=
      Option.some.inj ((LookupMap.get_insert_self _ _ _).symm.trans hsold)
    cases hflight
    obtain ⟨hok, hforeign⟩ := hanswer rfl
    exact absurd hforeign (hlocker hok)
  | sweepEnded hsweep => cases hsweep

theorem KeysInPlace.step (h : s.KeysInPlace) {g : Genesis} (hs : s.chain.Reached g)
    (hheld : s.market.Held) (hstep : s.step l = some s') (hkeeps : s.KeepsSettlements l) :
    s'.KeysInPlace := by
  intro id b hget
  have hmove := Chain.move_of_step (step_chain hstep)
  rcases hmove.arises hget with hold | harises
  · obtain ⟨a, locker, keys, ha, hlocker, hkey⟩ := h id b hold
    obtain ⟨l', keys', hlocker', hkey'⟩ := locker_of_move hs hheld hmove hkeeps hold ha hlocker
    exact ⟨a, l', keys', ha, hlocker', hkey'.trans hkey⟩
  · generalize hnew : Flight.sold b true = fl' at harises
    cases harises with
    | opened | handed =>
      rename_i p _ _ _
      cases p <;> cases hnew
    | @next _ ok fl _ _ c' hfl hadvance hnext hget' =>
      subst hnew
      cases hnext with
      | sweep _ hsweep => cases hsweep
      | transferred =>
        have hafter : s'.chain = c' := by
          cases delivered_of_step hfl hstep with
          | advanced _ hadvance' => exact Option.some.inj (hadvance'.symm.trans hadvance)
          | settled ho => cases ho
          | panicked he => cases he
        rw [hafter]
        exact locker_of_transfer hs hfl hget' (Chain.receipt_of_advance hadvance)
          (by rw [KeepsSettlements, hfl] at hkeeps; exact hkeeps)
    | sweepAnswer hsweep =>
      subst hnew
      cases hsweep
    | _ => cases hnew

theorem keysInPlace_of_run {g : Genesis} {tr : List (Transition System Label)}
    (hrun : Run System.step (System.init g) tr s) (hkeeps : Meets KeepsSettlements tr) :
    s.KeysInPlace := by
  refine (hrun.guarded (I := fun s => s.market.Held ∧ s.KeysInPlace) ⟨held_init g, ?_⟩ ?_ hkeeps).2
  · intro id b hget
    cases hget
  · intro s l s' hs ⟨hheld, hkeys⟩ hkeeps hstep
    exact ⟨held_step hs hheld hkeeps.keepsSellers hstep,
      hkeys.step (System.Reached.chain hs) hheld hstep hkeeps⟩

end System

/-! ## Settlement -/

theorem not_both {s s' : System} {id : ℕ} {b : PendingBuy} (h : SoldTo s s' id b) :
    ¬ AbortedFor s s' id b := by
  intro haborted
  obtain ⟨a, l, keys, -, hswapped, -⟩ := h.locker
  rw [haborted.unswapped] at hswapped
  cases hswapped

/-- The callback of a transfer sells an entry that is there, if the revenue has room. -/
theorem soldTo_of_settled {g : Genesis} {s s' : System} (hs : s.Reached g) (hswaps : s.Swaps)
    (hheld : s.market.Held) (hkeys : s.KeysInPlace) {id : ℕ} {b : PendingBuy} {rec : CallRecord}
    (hfl : s.chain.flights.get id = some (.sold b true)) (hopened : s.history.opened id = some rec)
    {sub : SubAccountEntry} (hsub : s.chain.registry.subAccounts.get b.key = some sub)
    (hroom : s.chain.registry.totalRevenue + s.chain.registry.resaleCommission b.price ≤ u128Max)
    {o : Outcome} (ho : Settled s.chain.registry (.sold b true) o)
    (hchain : s'.chain = s.chain.settle id o)
    (hhist : s'.history = { s.history with credits := s.history.credits ++ o.credits }) :
    SoldTo s s' id b := by
  have hreg : s'.chain.registry = _ := congrArg Chain.registry hchain
  have hcredits : s'.history.credits = _ := congrArg History.credits hhist
  cases ho with
  | saleVoid hnone =>
    rw [hnone] at hsub
    cases hsub
  | sold hsub' =>
    cases hsub.symm.trans hsub'
    -- The locker that took the key is the one that has it.
    have hlocker : ∃ a l keys, a.chars = b.key ∧
        s.history.swapped id = some (a, b.newOwnerKey) ∧
        s'.chain.accounts a = .locker l keys ∧ l.ownerKey = b.newOwnerKey := by
      obtain ⟨a, l, keys, ha, hlocker, hkey⟩ := hkeys id b hfl
      obtain ⟨a', ha', hswapped⟩ := hswaps.answered id b hfl
      obtain rfl : a' = a := AccountId.chars_injective (ha'.trans ha.symm)
      exact ⟨a', l, keys, ha, hswapped, by rw [hchain]; exact hlocker, hkey⟩
    obtain ⟨sub₀, hsub₀, howner, hrentals⟩ :=
      System.tenancy_of_held hheld (Chain.saleOf_of_get hfl) hopened hsub
    have hsettled : s'.history.credits = s.history.credits ++
        (sub₀.owner, b.price - s.chain.registry.resaleCommission b.price) ::
          excessCredit b.buyer (b.deposit - b.price) := by
      rw [hcredits, ← howner]
      rfl
    refine ⟨hlocker, ⟨rec, sub₀, sub, s.chain.registry.resaleCommission b.price, hopened,
      hsub₀, hrentals, hsub, howner, ?_, Nat.min_le_right _ _,
      (System.Reached.chain hs).price_le hfl rfl, ?_, hsettled⟩, ?_, ?_⟩
    · rw [hreg]
      exact LookupMap.get_insert_self _ _ _
    · rw [hreg]
      exact satAdd_eq hroom
    · rw [hreg]
      exact LookupMap.get_remove_self _ _
    · rw [hreg]
      exact LookupMap.get_remove_self _ _

/-- The step of a callback that settles a sale, or takes it on to its transfer. -/
theorem settlement_of_swaps {g : Genesis} {s s' : System} (hs : s.Reached g) (hswaps : s.Swaps)
    (hheld : s.market.Held) (hkeys : s.KeysInPlace) {id : ℕ} {ok : Bool} {b : PendingBuy}
    {rec : CallRecord} (hsale : s.chain.saleOf id = some b)
    (hopened : s.history.opened id = some rec)
    (hstep : s.step (.deliver id ok) = some s') (hkeeps : s.KeepsSettlements (.deliver id ok)) :
    (s'.chain.saleOf id = none → Xor (SoldTo s s' id b) (AbortedFor s s' id b)) ∧
      (s'.chain.saleOf id ≠ none → s'.chain.registry = s.chain.registry) := by
  obtain ⟨fl, hfl, hb⟩ := Option.bind_eq_some_iff.mp hsale
  cases System.delivered_of_step hfl hstep with
  | panicked he =>
    rw [Flight.selling_of_panic he] at hb
    cases hb
  | advanced _ hadvance =>
    have hadv := Chain.advanced_of_advance hadvance
    have hstays : s'.chain.saleOf id = s.chain.saleOf id :=
      hadv.about Flight.selling_kept (System.Reached.chain hs).freshIds hfl id
    refine ⟨fun hgone => ?_, fun _ => hadv.registry⟩
    rw [hgone, hsale] at hstays
    cases hstays
  | @settled o ho hchain hhist =>
    have hreg : s'.chain.registry = _ := congrArg Chain.registry hchain
    have hcredits : s'.history.credits = _ := congrArg History.credits hhist
    have hends (hp : o.promise = none) : s'.chain.saleOf id = none := by
      rw [hchain, Chain.saleOf_settle_self, hp]
      rfl
    -- It is an abort only because the locker has not taken the key for this sale.
    have haborts (ho : o = s.chain.registry.aborted b) (hnone : s.history.swapped id = none) :
        (s'.chain.saleOf id = none → Xor (SoldTo s s' id b) (AbortedFor s s' id b)) ∧
          (s'.chain.saleOf id ≠ none → s'.chain.registry = s.chain.registry) := by
      subst ho
      have haborted : AbortedFor s s' id b := ⟨hcredits, by rw [hreg]; rfl, hnone⟩
      exact ⟨fun _ => .inr ⟨haborted, fun hsold => not_both hsold haborted⟩,
        fun hstays => absurd (hends rfl) hstays⟩
    cases ho with
    | saleCleared =>
      cases hb
      refine ⟨fun hgone => ?_, fun _ => hreg⟩
      rw [hchain, Chain.saleOf_settle_self] at hgone
      cases hgone
    | saleBlocked =>
      cases hb
      exact haborts rfl (hswaps.pending _ _ _ hfl rfl (by simp))
    | saleFailed =>
      cases hb
      exact haborts rfl (hswaps.pending _ _ _ hfl rfl (by simp))
    -- This branch returns the deposit although the key has changed. The guard rules it out.
    | saleVoid hnone =>
      cases hb
      rw [System.KeepsSettlements, hfl] at hkeeps
      obtain ⟨sub, hsub⟩ := LookupMap.containsKey_eq_true.mp hkeeps.1
      rw [hnone] at hsub
      cases hsub
    | @sold _ sub hsub =>
      cases hb
      rw [System.KeepsSettlements, hfl] at hkeeps
      have hsold : SoldTo s s' id b :=
        soldTo_of_settled hs hswaps hheld hkeys hfl hopened hsub hkeeps.2 (.sold hsub) hchain hhist
      exact ⟨fun _ => .inl ⟨hsold, not_both hsold⟩, fun hstays => absurd (hends rfl) hstays⟩
    | _ => cases hb

/-- In a run in which lockers answer transfers and entries outlast the sales that went
through on their lockers, every sale that is settled is sold or aborted and not both. -/
theorem settled_exactly_once_of_run {g : Genesis} {tr : List (Transition System Label)}
    {s : System} (hrun : Run System.step (System.init g) tr s)
    (hkeeps : Meets System.KeepsSettlements tr) :
    ∀ t ∈ tr, ∀ id ok b, t.label = .deliver id ok → t.before.chain.saleOf id = some b →
      (∃ rec o, t.before.history.opened id = some rec ∧ rec.outcome = some o ∧
        SaleTerms rec b ∧ o.registry.subAccounts = rec.before.registry.subAccounts) ∧
      (t.after.chain.saleOf id = none →
        Xor (SoldTo t.before t.after id b) (AbortedFor t.before t.after id b)) ∧
      (t.after.chain.saleOf id ≠ none → t.after.chain.registry = t.before.chain.registry) := by
  rintro ⟨s, l, s'⟩ ht id ok b rfl hsale
  obtain ⟨tr', hrun', hkeeps', hstep⟩ := hrun.meets_of_mem hkeeps ht
  have hs : s.Reached g := ⟨tr', hrun'⟩
  have hswaps := System.swaps_of_run hrun' hkeeps'
  have hheld := System.held_of_run hrun' (fun t ht => (hkeeps' t ht).keepsSellers)
  have hkeys := System.keysInPlace_of_run hrun' hkeeps'
  obtain ⟨fl, hfl, hb⟩ := Option.bind_eq_some_iff.mp hsale
  obtain ⟨rec, o, hopened, houtcome, hterms⟩ := hs.saleTerms hfl hb
  refine ⟨⟨rec, o, hopened, houtcome, hterms, ?_⟩,
    settlement_of_swaps hs hswaps hheld hkeys hsale hopened hstep (hkeeps _ ht)⟩
  have ho := (Chain.accepted_of_callOutcome houtcome).2
  rw [hterms.op] at ho
  cases ho with
  | buySubAccount => rfl
  | configured hop => cases hop
  | resale hop => cases hop

/-! ## An entry that goes before the callback -/

/-- Bob's key is on the locker of the exported account, and the callback that finds no
entry gives him his deposit back. -/
theorem neither_sold_nor_aborted :
    ∃ s s' : System, s.Reached Sample.genesis ∧
      s.chain.saleOf 4 = some Sample.purchase ∧ s.step (.deliver 4 true) = some s' ∧
      s'.chain.saleOf 4 = none ∧
      ¬ Xor (SoldTo s s' 4 Sample.purchase) (AbortedFor s s' 4 Sample.purchase) := by
  refine ⟨Sample.historyAfter Sample.boughtExported (by decide +kernel),
    (System.step _ (.deliver 4 true)).get (by decide +kernel), Sample.history_reached _ _, rfl,
    (Option.some_get _).symm, by decide +kernel, ?_⟩
  rintro (⟨hsold, -⟩ | ⟨haborted, -⟩)
  · obtain ⟨rec, sub₀, sub, commission, -, -, -, hsub, -⟩ := hsold.settled
    have hnone : (Sample.historyAfter Sample.boughtExported
      (by decide +kernel)).chain.registry.subAccounts.get Sample.purchase.key = none := by
        decide +kernel
    rw [hnone] at hsub
    cases hsub
  · have hswapped : ((Sample.historyAfter Sample.boughtExported
      (by decide +kernel)).history.swapped 4).isSome = true := by decide +kernel
    rw [haborted.unswapped] at hswapped
    cases hswapped

/-- Without the export Bob is the owner on both sides. -/
theorem settled_exactly_once_of_run_bought :
    ∃ tr : List (Transition System Label),
      tr.map Transition.label = Sample.bought ++ [.deliver 4 true] ∧
      ∀ t ∈ tr, ∀ id ok b, t.label = .deliver id ok → t.before.chain.saleOf id = some b →
        (∃ rec o, t.before.history.opened id = some rec ∧ rec.outcome = some o ∧
          SaleTerms rec b ∧ o.registry.subAccounts = rec.before.registry.subAccounts) ∧
        (t.after.chain.saleOf id = none →
          Xor (SoldTo t.before t.after id b) (AbortedFor t.before t.after id b)) ∧
        (t.after.chain.saleOf id ≠ none → t.after.chain.registry = t.before.chain.registry) := by
  obtain ⟨tr, hrun, hlabels, hkeeps⟩ := Sample.exists_history_run_meets System.KeepsSettlements
    (Sample.bought ++ [.deliver 4 true]) (by decide +kernel) (by decide +kernel)
  exact ⟨tr, hlabels, settled_exactly_once_of_run hrun hkeeps⟩

end HosTla
