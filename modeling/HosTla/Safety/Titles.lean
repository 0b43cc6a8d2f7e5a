-- SUMMARY: Owners have paid for their accounts, and the keys of an account were paid for and released by an admin.
import HosTla.Safety.Entries
import HosTla.Safety.Orphans
import HosTla.Safety.Rollbacks
import HosTla.Safety.Sellers

/-!
# Titles

An account is in the hands of its owner in the registry, of the key its locker gives out at
an export, and of the keys the locker has put on it. None of the three is set by one call: a
key goes from the renter or the buyer through the registry, the manager and the locker. A run
traces each back to a call that paid for the account. What an owner does with the keys of the
account after an export is outside of it.
-/

namespace HosTla

open Foundation

/-! ## Payments -/

/-- The registry takes a call of `who` that pays for the account at `key`, with `k` as the key
of the new owner: a rental at the price of the name, or a purchase at the price quoted. -/
inductive Chain.Acquires (c : Chain) (key : Str) (who : AccountId) (k : PublicKey) : Label → Prop
  | rented {deposit reserve : ℕ} {tlaId mainWallet : AccountId} {name : Str} {tla : TlaEntry}
      (hcall : (c.callOutcome who deposit reserve
        (.rentSubAccount tlaId name k mainWallet)).isSome = true)
      (hkey : subAccountKey tlaId name = key) (htla : c.registry.tlas.get tlaId = some tla)
      (hpaid : satAdd u128Max (calculateRent tla tlaId name c.registry.feeConfig)
        c.registry.feeConfig.accountCreationDeposit ≤ deposit) :
      Acquires c key who k (.call who deposit reserve (.rentSubAccount tlaId name k mainWallet))
  | bought {deposit reserve price : ℕ} {tlaId : AccountId} {name : Str}
      (hcall : (c.callOutcome who deposit reserve (.buySubAccount tlaId name k)).isSome = true)
      (hkey : subAccountKey tlaId name = key)
      (hprice : c.registry.quotedPrice key who = some price) (hpaid : price ≤ deposit) :
      Acquires c key who k (.call who deposit reserve (.buySubAccount tlaId name k))

/-- The account at `key` was paid for with `k` in the run. -/
def Acquired (tr : List (Transition Chain Label)) (key : Str) (who : AccountId) (k : PublicKey) :
    Prop :=
  Occurs (fun c l => c.Acquires key who k l) tr

/-- The registry takes the purchase `b`: a call of its buyer for its account and its key, at the
price quoted to the buyer and with a deposit that covers it. -/
inductive Chain.Buys (c : Chain) (b : PendingBuy) : Label → Prop
  | bought {reserve : ℕ}
      (hcall : (c.callOutcome b.buyer b.deposit reserve
        (.buySubAccount b.tlaId b.name b.newOwnerKey)).isSome = true)
      (hprice : c.registry.quotedPrice b.key b.buyer = some b.price) (hpaid : b.price ≤ b.deposit) :
      Buys c b (.call b.buyer b.deposit reserve (.buySubAccount b.tlaId b.name b.newOwnerKey))

/-- The purchase `b` was made in the run, by the call with this id. -/
def Bought (tr : List (Transition Chain Label)) (id : ℕ) (b : PendingBuy) : Prop :=
  Occurs (fun c l => c.nextId = id ∧ c.Buys b l) tr

theorem Bought.acquired {tr : List (Transition Chain Label)} {id : ℕ} {b : PendingBuy}
    (h : Bought tr id b) : Acquired tr b.key b.buyer b.newOwnerKey := by
  refine Occurs.imp ?_ h
  rintro c l ⟨-, hbuys⟩
  cases hbuys with
  | bought hcall hprice hpaid => exact .bought hcall rfl hprice hpaid

/-- The registry takes a call of an admin that exports the account at `key`. -/
inductive Chain.Releases (c : Chain) (key : Str) : Label → Prop
  | exported {predecessor tlaId : AccountId} {deposit reserve : ℕ} {name : Str}
      (hcall : (c.callOutcome predecessor deposit reserve
        (.exportSubAccount tlaId name)).isSome = true)
      (hadmin : predecessor ∈ c.registry.admins) (hkey : subAccountKey tlaId name = key) :
      Releases c key (.call predecessor deposit reserve (.exportSubAccount tlaId name))

/-- The account at `key` was released by an admin in the run. -/
def Released (tr : List (Transition Chain Label)) (key : Str) : Prop :=
  Occurs (fun c l => c.Releases key l) tr

/-! ## Keys on their way -/

namespace Chain

variable {c c' : Chain} {l : Label}

/-- A rental in flight was in flight before the move, or the move pays for it. -/
theorem Move.rental (hmove : c.Move l c') {id : ℕ} {fl : Flight} {p : PendingRent}
    (hget : c'.flights.get id = some fl) (hp : fl.renting = some p) :
    (∃ fl₀, c.flights.get id = some fl₀ ∧ fl₀.renting = some p) ∨
      c.Acquires p.key p.payer p.ownerKey l := by
  refine (hmove.carried Flight.renting_carried hget hp).imp_right ?_
  rintro ⟨predecessor, deposit, reserve, op, o, promise, rfl, -, hcall, -, hpromise, rfl⟩
  obtain ⟨-, ho⟩ := accepted_of_callOutcome hcall
  obtain ⟨mainWallet, tla, rfl, htla, hrent, hcreation, hpayer, hattached, hpaid⟩ :=
    ho.rent_of_renting hpromise hp
  obtain rfl : predecessor = p.payer := hpayer.symm
  rw [hrent, hcreation, hattached] at hpaid
  exact .rented (by rw [hcall]; rfl) rfl htla hpaid

/-- A sale in flight was in flight before the move, or the move is its purchase. -/
theorem Move.sale (hmove : c.Move l c') {id : ℕ} {fl : Flight} {b : PendingBuy}
    (hget : c'.flights.get id = some fl) (hb : fl.selling = some b) :
    (∃ fl₀, c.flights.get id = some fl₀ ∧ fl₀.selling = some b) ∨ c.nextId = id ∧ c.Buys b l := by
  refine (hmove.carried Flight.selling_carried hget hb).imp_right ?_
  rintro ⟨predecessor, deposit, reserve, op, o, promise, rfl, hid, hcall, -, hpromise, rfl⟩
  obtain ⟨-, ho⟩ := accepted_of_callOutcome hcall
  obtain ⟨seller, rfl, hbuyer, hdeposit, -, -, hlock⟩ := ho.buy_of_selling hpromise hb
  obtain rfl : predecessor = b.buyer := hbuyer.symm
  obtain rfl : deposit = b.deposit := hdeposit.symm
  exact ⟨hid.symm, .bought (by rw [hcall]; rfl) hlock.quotedPrice hlock.price_le⟩

/-- An export in flight was in flight before the move, or an admin calls it. -/
theorem Move.export_ (hmove : c.Move l c') {id : ℕ} {fl : Flight} {a tlaId : AccountId}
    {name : Str} (hget : c'.flights.get id = some fl) (hx : fl.exports = some (a, tlaId, name)) :
    (∃ fl₀, c.flights.get id = some fl₀ ∧ fl₀.exports = some (a, tlaId, name)) ∨
      c.Releases a.chars l := by
  refine (hmove.carried Flight.exports_carried hget hx).imp_right ?_
  rintro ⟨predecessor, deposit, reserve, op, o, promise, rfl, -, hcall, -, hpromise, rfl⟩
  obtain ⟨-, ho⟩ := accepted_of_callOutcome hcall
  cases ho with
  | exportSubAccount hadmin _ haccount =>
    cases hpromise
    cases hx
    exact .exported (by rw [hcall]; rfl) hadmin haccount.symm
  | resale _ hresale =>
    cases hpromise
    cases promise with
    | exportSubAccount => cases hresale
    | _ => cases hx
  | reclaimFinalize | buySubAccount =>
    cases hpromise
    split at hx <;> cases hx
  | _ => cases hpromise <;> cases hx

/-- A batch in flight was in flight before the move, or the manager sends it. -/
theorem Move.batch (hmove : c.Move l c') {id : ℕ} {p : PendingRent} {a : AccountId}
    {locker : SubAccountLocker} (hget : c'.flights.get id = some (.createBatch p a locker)) :
    c.flights.get id = some (.createBatch p a locker) ∨
      c.flights.get id = some (.createCall p) ∧ c.managerBatch p = some (a, locker) := by
  rcases hmove.arises hget with hold | harises
  · exact .inl hold
  generalize hnew : Flight.createBatch p a locker = fl at harises
  cases harises with
  | opened | handed =>
    rename_i promise _ _ _
    cases promise <;> cases hnew
  | next hfl hadvance hnext hget =>
    subst hnew
    cases hnext with
    | sweep _ hsweep => cases hsweep
    | createAccepted => exact .inr ⟨hfl, managerBatch_of_advance hadvance hget⟩
  | sweepAnswer hsweep =>
    subst hnew
    cases hsweep
  | _ => cases hnew

/-- A key on its way to a locker was on its way before the move, or it is the one the locker
gives out. -/
theorem Move.keyOnItsWay (hmove : c.Move l c') {id sent : ℕ} {a tlaId : AccountId} {name : Str}
    {key : PublicKey} (hget : c'.flights.get id = some (.addKey a tlaId name key sent)) :
    c.flights.get id = some (.addKey a tlaId name key sent) ∨
      ∃ locker keys, c.accounts a = .locker locker keys ∧ locker.ownerKey = key := by
  rcases hmove.arises hget with hold | harises
  · exact .inl hold
  generalize hnew : Flight.addKey a tlaId name key sent = fl at harises
  cases harises with
  | opened | handed =>
    rename_i promise _ _ _
    cases promise <;> cases hnew
  | next hfl hadvance hnext hget =>
    subst hnew
    cases hnext with
    | sweep _ hsweep => cases hsweep
    | exportAccepted =>
      cases receipt_of_advance hadvance with
      | exportAccepted hlocker =>
        simp only [setAccount, setFlight, LookupMap.get_insert_self, Option.some.injEq,
          Flight.addKey.injEq, true_and] at hget
        exact .inr ⟨_, _, hlocker, hget.1⟩
      | exportAnswered =>
        rw [setFlight, LookupMap.get_insert_self] at hget
        cases hget
      | sweepEnded hsweep => cases hsweep
  | sweepAnswer hsweep =>
    subst hnew
    cases hsweep
  | _ => cases hnew

/-- Where a locker and its keys come from that an account has after a move. -/
inductive Hands (c : Chain) (a : AccountId) : SubAccountLocker → List PublicKey → Prop
  | kept {locker locker' : SubAccountLocker} {keys : List PublicKey}
      (hlocker : c.accounts a = .locker locker keys)
      (hkey : locker'.ownerKey = locker.ownerKey) : Hands c a locker' keys
  | created {id : ℕ} {p : PendingRent} {locker : SubAccountLocker}
      (hfl : c.flights.get id = some (.createBatch p a locker)) : Hands c a locker []
  | keyAdded {id sent : ℕ} {tlaId : AccountId} {name : Str} {key : PublicKey}
      {locker : SubAccountLocker} {keys : List PublicKey}
      (hfl : c.flights.get id = some (.addKey a tlaId name key sent))
      (hlocker : c.accounts a = .locker locker keys) : Hands c a locker (key :: keys)
  | transferred {id : ℕ} {b : PendingBuy} {locker locker' : SubAccountLocker}
      {keys : List PublicKey} (hfl : c.flights.get id = some (.transferCall a b))
      (hlocker : c.accounts a = .locker locker keys)
      (hkey : locker'.ownerKey = b.newOwnerKey) : Hands c a locker' keys

theorem Receipt.hands {id : ℕ} {ok : Bool} {fl : Flight} (h : c.Receipt id ok fl c')
    (hfl : c.flights.get id = some fl) {a : AccountId} {locker : SubAccountLocker}
    {keys : List PublicKey} (hlocker : c'.accounts a = .locker locker keys) :
    c.Hands a locker keys := by
  -- A receipt that sets the account `b`, seen from `a`.
  have hset (c₀ : Chain) {b : AccountId} {state : Account} (hsame : c₀.accounts = c.accounts)
      (hhands : state = .locker locker keys → c.Hands b locker keys)
      (hlocker : (c₀.setAccount b state).accounts a = .locker locker keys) :
      c.Hands a locker keys := by
    by_cases heq : a = b
    · subst heq
      rw [accounts_setAccount_self] at hlocker
      exact hhands hlocker
    · rw [accounts_setAccount_ne heq, hsame] at hlocker
      exact .kept hlocker rfl
  cases h with
  | created =>
    refine hset _ rfl (fun heq => ?_) hlocker
    cases heq
    exact .created hfl
  | deleted => exact hset _ rfl (fun heq => by cases heq) hlocker
  | exportAccepted hold =>
    refine hset (c.setFlight id _) rfl (fun heq => ?_) hlocker
    cases heq
    exact .kept hold rfl
  | keyAdded _ hold =>
    refine hset _ rfl (fun heq => ?_) hlocker
    cases heq
    exact .keyAdded hfl hold
  | @exportResolved _ _ _ added _ _ hold =>
    refine hset _ rfl (fun heq => ?_) hlocker
    cases heq
    exact .kept hold (by cases added <;> rfl)
  | transferred _ hold =>
    refine hset _ rfl (fun heq => ?_) hlocker
    cases heq
    exact .transferred hfl hold rfl
  | _ => exact .kept hlocker rfl

theorem Move.hands (hmove : c.Move l c') {a : AccountId} {locker : SubAccountLocker}
    {keys : List PublicKey} (hlocker : c'.accounts a = .locker locker keys) :
    c.Hands a locker keys := by
  cases hmove with
  | advanced hfl _ _ hadvance => exact (receipt_of_advance hadvance).hands hfl hlocker
  | answered _ hanswer => cases hanswer <;> exact .kept hlocker rfl
  | @foreign account present =>
    by_cases heq : a = account
    · subst heq
      rw [accounts_setAccount_self] at hlocker
      cases present <;> cases hlocker
    · rw [accounts_setAccount_ne heq] at hlocker
      exact .kept hlocker rfl
  | _ => exact .kept hlocker rfl

end Chain

/-! ## Titles -/

/-- What a run tells of owners and keys: who paid for the account, and with which key. -/
structure Titled (tr : List (Transition Chain Label)) (c : Chain) : Prop where
  owners : ∀ key sub, c.registry.subAccounts.get key = some sub →
    ∃ k, Acquired tr key sub.owner k
  lockers : ∀ a locker keys, c.accounts a = .locker locker keys →
    ∀ k ∈ locker.ownerKey :: keys, ∃ who, Acquired tr a.chars who k
  released : ∀ a locker keys, c.accounts a = .locker locker keys → keys ≠ [] →
    Released tr a.chars
  rentals : ∀ id fl p, c.flights.get id = some fl → fl.renting = some p →
    Acquired tr p.key p.payer p.ownerKey
  sales : ∀ id fl b, c.flights.get id = some fl → fl.selling = some b → Bought tr id b
  exports : ∀ id fl a tlaId name, c.flights.get id = some fl →
    fl.exports = some (a, tlaId, name) → Released tr a.chars
  batches : ∀ id p a locker, c.flights.get id = some (.createBatch p a locker) →
    a.chars = p.key ∧ locker.ownerKey = p.ownerKey
  keys : ∀ id a tlaId name key sent, c.flights.get id = some (.addKey a tlaId name key sent) →
    ∃ who, Acquired tr a.chars who key

namespace Titled

variable {tr : List (Transition Chain Label)} {c c' : Chain} {l : Label}

theorem rentals_step (h : Titled tr c) (hmove : c.Move l c') {id : ℕ} {fl : Flight}
    {p : PendingRent} (hget : c'.flights.get id = some fl) (hp : fl.renting = some p) :
    Acquired (tr ++ [⟨c, l, c'⟩]) p.key p.payer p.ownerKey := by
  rcases hmove.rental hget hp with ⟨fl₀, hold, hp⟩ | hpays
  · exact (h.rentals _ _ _ hold hp).append _
  · exact .last hpays

theorem sales_step (h : Titled tr c) (hmove : c.Move l c') {id : ℕ} {fl : Flight}
    {b : PendingBuy} (hget : c'.flights.get id = some fl) (hb : fl.selling = some b) :
    Bought (tr ++ [⟨c, l, c'⟩]) id b := by
  rcases hmove.sale hget hb with ⟨fl₀, hold, hb⟩ | hbuys
  · exact (h.sales _ _ _ hold hb).append _
  · exact .last hbuys

theorem exports_step (h : Titled tr c) (hmove : c.Move l c') {id : ℕ} {fl : Flight}
    {a tlaId : AccountId} {name : Str} (hget : c'.flights.get id = some fl)
    (hx : fl.exports = some (a, tlaId, name)) : Released (tr ++ [⟨c, l, c'⟩]) a.chars := by
  rcases hmove.export_ hget hx with ⟨fl₀, hold, hx⟩ | hreleases
  · exact (h.exports _ _ _ _ _ hold hx).append _
  · exact .last hreleases

theorem batches_step (h : Titled tr c) (hmove : c.Move l c') {id : ℕ} {p : PendingRent}
    {a : AccountId} {locker : SubAccountLocker}
    (hget : c'.flights.get id = some (.createBatch p a locker)) :
    a.chars = p.key ∧ locker.ownerKey = p.ownerKey := by
  rcases hmove.batch hget with hold | ⟨-, hbatch⟩
  · exact h.batches _ _ _ _ hold
  · obtain ⟨m, -, hcreate⟩ := Option.bind_eq_some_iff.mp hbatch
    rw [toOption_eq_some] at hcreate
    obtain ⟨-, haccount, rfl⟩ := TlaManager.createSubAccount_eq_ok.mp hcreate
    exact ⟨haccount, rfl⟩

theorem keys_step (h : Titled tr c) (hmove : c.Move l c') {id sent : ℕ} {a tlaId : AccountId}
    {name : Str} {key : PublicKey}
    (hget : c'.flights.get id = some (.addKey a tlaId name key sent)) :
    ∃ who, Acquired (tr ++ [⟨c, l, c'⟩]) a.chars who key := by
  rcases hmove.keyOnItsWay hget with hold | ⟨locker, keys, hlocker, rfl⟩
  · exact (h.keys _ _ _ _ _ _ hold).imp fun _ hwho => hwho.append _
  · exact (h.lockers _ _ _ hlocker _ List.mem_cons_self).imp fun _ hwho => hwho.append _

/-- The keys of a locker: those it had, that of its renter, that of its buyer, and its own
owner key as an access key. -/
theorem lockers_step (h : Titled tr c) (haimed : ∀ id fl, c.flights.get id = some fl → fl.Aimed)
    (hmove : c.Move l c') {a : AccountId} {locker : SubAccountLocker} {keys : List PublicKey}
    (hlocker : c'.accounts a = .locker locker keys) {k : PublicKey}
    (hk : k ∈ locker.ownerKey :: keys) :
    ∃ who, Acquired (tr ++ [⟨c, l, c'⟩]) a.chars who k := by
  suffices hold : ∃ who, Acquired tr a.chars who k from hold.imp fun _ hwho => hwho.append _
  cases hmove.hands hlocker with
  | kept hold hkey => exact h.lockers _ _ _ hold _ (hkey ▸ hk)
  | created hfl =>
    obtain ⟨haccount, hkey⟩ := h.batches _ _ _ _ hfl
    rw [List.mem_singleton, hkey] at hk
    rw [hk, haccount]
    exact ⟨_, h.rentals _ _ _ hfl rfl⟩
  | keyAdded hfl hold =>
    rcases List.mem_cons.mp hk with rfl | hk
    · exact h.lockers _ _ _ hold _ List.mem_cons_self
    rcases List.mem_cons.mp hk with rfl | hk
    · exact h.keys _ _ _ _ _ _ hfl
    · exact h.lockers _ _ _ hold _ (List.mem_cons_of_mem _ hk)
  | transferred hfl hold hkey =>
    rcases List.mem_cons.mp hk with rfl | hk
    · have haccount : a.chars = _ := haimed _ _ hfl
      rw [hkey, haccount]
      exact ⟨_, (h.sales _ _ _ hfl rfl).acquired⟩
    · exact h.lockers _ _ _ hold _ (List.mem_cons_of_mem _ hk)

/-- An account gets its first key by an export. -/
theorem released_step (h : Titled tr c) (hmove : c.Move l c') {a : AccountId}
    {locker : SubAccountLocker} {keys : List PublicKey}
    (hlocker : c'.accounts a = .locker locker keys) (hkeys : keys ≠ []) :
    Released (tr ++ [⟨c, l, c'⟩]) a.chars := by
  suffices hold : Released tr a.chars from hold.append _
  cases hmove.hands hlocker with
  | kept hold => exact h.released _ _ _ hold hkeys
  | created => exact absurd rfl hkeys
  | keyAdded hfl => exact h.exports _ _ _ _ _ hfl rfl
  | transferred _ hold => exact h.released _ _ _ hold hkeys

/-- The owner of an entry: the one it had, the renter, or the buyer. -/
theorem owners_step (h : Titled tr c) (hmove : c.Move l c') {key : Str} {sub : SubAccountEntry}
    (hsub : c'.registry.subAccounts.get key = some sub) :
    ∃ k, Acquired (tr ++ [⟨c, l, c'⟩]) key sub.owner k := by
  have hkept {sub₀ : SubAccountEntry} (hold : c.registry.subAccounts.get key = some sub₀)
      (howner : sub.owner = sub₀.owner) :
      ∃ k, Acquired (tr ++ [⟨c, l, c'⟩]) key sub.owner k := by
    rw [howner]
    exact (h.owners _ _ hold).imp fun _ hk => hk.append _
  rcases hmove.registry with
    hsame | ⟨predecessor, deposit, reserve, op, o, rfl, hcall, -, ho, hsame⟩ |
      ⟨id, ok, fl, o, rfl, hfl, ho, hsame⟩
  · exact hkept (hsame ▸ hsub) rfl
  · rw [hsame] at hsub
    have hentry := ho.entry key
    rw [hsub] at hentry
    generalize hnew : some sub = entry at hentry
    cases hentry with
    | kept => exact hkept hnew.symm rfl
    | amended hold _ howner =>
      cases hnew
      exact hkept hold howner
    | rented hkey =>
      cases ho with
      | configured hop => cases hop
      | resale hop => cases hop
      | rentSubAccount _ _ _ _ htla _ _ hrent hpaid =>
        subst hkey
        simp only [Outcome.withPromise, LookupMap.get_insert_self, Option.some.injEq] at hsub
        subst hsub hrent
        exact ⟨_, .last (.rented (Option.isSome_iff_exists.mpr ⟨_, hcall⟩) rfl htla hpaid)⟩
  · rw [hsame] at hsub
    have hentry := ho.entry key
    rw [hsub] at hentry
    generalize hnew : some sub = entry at hentry
    cases hentry with
    | kept => exact hkept hnew.symm rfl
    | sold hkey =>
      cases hnew
      subst hkey
      exact ⟨_, (h.sales _ _ _ hfl rfl).acquired.append _⟩
    | removed => cases hnew

theorem step (h : Titled tr c) (haimed : ∀ id fl, c.flights.get id = some fl → fl.Aimed)
    (hmove : c.Move l c') : Titled (tr ++ [⟨c, l, c'⟩]) c' where
  owners _ _ hsub := h.owners_step hmove hsub
  lockers _ _ _ hlocker _ hk := h.lockers_step haimed hmove hlocker hk
  released _ _ _ hlocker hkeys := h.released_step hmove hlocker hkeys
  rentals _ _ _ hget hp := h.rentals_step hmove hget hp
  sales _ _ _ hget hb := h.sales_step hmove hget hb
  exports _ _ _ _ _ hget hx := h.exports_step hmove hget hx
  batches _ _ _ _ hget := h.batches_step hmove hget
  keys _ _ _ _ _ _ hget := h.keys_step hmove hget

theorem of_run {g : Genesis} (hrun : Run Chain.step (.init g) tr c) : Titled tr c := by
  induction hrun with
  | nil =>
    -- Nothing is in flight at first, and no account is under custody.
    have hnone (id : ℕ) : (Chain.init g).flights.get id = none := rfl
    have hheld (a : AccountId) (locker : SubAccountLocker) (keys : List PublicKey) :
        (Chain.init g).accounts a ≠ .locker locker keys := by
      intro hlocker
      simp only [Chain.init] at hlocker
      split at hlocker <;> cases hlocker
    refine ⟨?_, ?_, ?_, ?_, ?_, ?_, ?_, ?_⟩
    · intro key sub hsub
      cases hsub
    · intro a locker keys hlocker
      exact absurd hlocker (hheld _ _ _)
    · intro a locker keys hlocker
      exact absurd hlocker (hheld _ _ _)
    · intro id fl p hget
      exact absurd (hnone id) (by simp [hget])
    · intro id fl b hget
      exact absurd (hnone id) (by simp [hget])
    · intro id fl a tlaId name hget
      exact absurd (hnone id) (by simp [hget])
    · intro id p a locker hget
      exact absurd (hnone id) (by simp [hget])
    · intro id a tlaId name key sent hget
      exact absurd (hnone id) (by simp [hget])
  | snoc hrun hstep ih =>
    exact ih.step (fun _ _ hfl => Chain.Reached.aimed ⟨_, hrun⟩ hfl) (Chain.move_of_step hstep)

end Titled

/-- Along every run, whoever the registry has as the owner of an account has paid for it, by a
rental at its rent or a purchase at the price quoted. The key a locker gives out at an export,
and every key that a locker has put on its account, is one that somebody named in such a payment
for this very account. It has put none there before an admin has exported it. -/
theorem titles_paid {g : Genesis} {c : Chain} {tr : List (Transition Chain Label)}
    (hrun : Run Chain.step (.init g) tr c) :
    (∀ key sub, c.registry.subAccounts.get key = some sub → ∃ k, Acquired tr key sub.owner k) ∧
      ∀ a locker keys, c.accounts a = .locker locker keys →
        (∀ k ∈ locker.ownerKey :: keys, ∃ who, Acquired tr a.chars who k) ∧
          (keys ≠ [] → Released tr a.chars) := by
  have h := Titled.of_run hrun
  refine ⟨h.owners, fun a locker keys hlocker => ⟨h.lockers _ _ _ hlocker, ?_⟩⟩
  exact h.released _ _ _ hlocker

/-- Alice rents `n.hos` with one key, Bob buys it with another, and the admin exports it. -/
def Sample.soldAndExported : List Label :=
  Sample.onSale ++ [
    Sample.call Sample.bob 5 (.buySubAccount Sample.tla Sample.name Sample.otherKey),
    .deliver 4 true, .deliver 4 true,
    Sample.call Sample.admin 0 (.exportSubAccount Sample.tla Sample.name),
    .deliver 5 true, .deliver 5 true]

/-- The registry has Bob as the owner, and the account has the key Bob paid with. -/
theorem titles_paid_sold :
    ∃ tr c locker, Run Chain.step (.init Sample.genesis) tr c ∧
      c.accounts Sample.sub = .locker locker [Sample.otherKey] ∧
      (∃ k, Acquired tr Sample.sub.chars Sample.bob k) ∧
      (∃ who, Acquired tr Sample.sub.chars who Sample.otherKey) ∧
      Released tr Sample.sub.chars := by
  obtain ⟨tr, hrun, -⟩ := Sample.exists_run Sample.soldAndExported (by decide +kernel)
  have howner : ((Sample.after Sample.soldAndExported
      (by decide +kernel)).registry.subAccounts.get Sample.sub.chars).map (·.owner) =
        some Sample.bob := by decide +kernel
  obtain ⟨sub, hsub, howner⟩ := Option.map_eq_some_iff.mp howner
  have hlocker : (Sample.after Sample.soldAndExported (by decide +kernel)).accounts Sample.sub =
      .locker ⟨Sample.registry, Sample.otherKey, .exporting⟩ [Sample.otherKey] := by
    decide +kernel
  obtain ⟨howners, hlockers⟩ := titles_paid hrun
  obtain ⟨hkeys, hreleased⟩ := hlockers _ _ _ hlocker
  exact ⟨tr, _, _, hrun, hlocker, howner ▸ howners _ _ hsub, hkeys _ List.mem_cons_self,
    hreleased (List.cons_ne_nil _ _)⟩

end HosTla
