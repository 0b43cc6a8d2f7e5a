-- SUMMARY: A reclaim pays to the wallet the entry had when the reclaim was started.
import HosTla.Safety.Reclaims

/-!
# Wallets

`reclaim_sweep_ft` and `reclaim_finalize` read the main wallet of the entry and send it
along. As long as the rental lasts, what they start pays to that wallet, also when the owner
has named another one, or the account has been sold, by the time the payment is made.
-/

namespace HosTla

open Foundation

/-- The key a chain reclaims from and the wallet it pays to. -/
def Flight.payout : Flight → Option (Str × AccountId)
  | .sweepCall a _ d | .sweepBalance a _ d | .sweepQueried a _ d _ => some (a.chars, d)
  | .sweepDeposit a _ d _ | .sweepDeposited a _ d _ _ | .sweepTransfer a _ d _ => some (a.chars, d)
  | .reclaimQueries _ p _ _ | .finalizeCall _ p | .deleteAccount _ p _ => some (p.key, p.destination)
  | _ => none

/-- The account and the wallet of an `ft_transfer` or a `delete_account`. -/
def Flight.pays : Flight → Option (AccountId × AccountId)
  | .sweepTransfer a _ d _ => some (a, d)
  | .deleteAccount a p _ => some (a, p.destination)
  | _ => none

/-! ## A payout keeps its wallet -/

namespace Chain

variable {c c' : Chain} {l : Label} {id i index : ℕ} {ok : Bool} {fl fl' : Flight}

theorem get_setFlight_payout {next : Flight}
    (hget : (c.setFlight id next).flights.get i = some fl') (hnext : next.payout = fl.payout) :
    (i = id ∧ fl'.payout = fl.payout) ∨ c.flights.get i = some fl' := by
  rcases LookupMap.get_of_get_insert hget with ⟨hi, rfl⟩ | ⟨-, hget⟩
  · exact .inl ⟨hi, hnext⟩
  · exact .inr hget

theorem payout_of_advanceSweep (h : c.advanceSweep id ok fl = some c')
    (hget : c'.flights.get i = some fl') :
    (i = id ∧ fl'.payout = fl.payout) ∨ c.flights.get i = some fl' := by
  have hdrop (hget : (c.flights.remove id).get i = some fl') :
      (i = id ∧ fl'.payout = fl.payout) ∨ c.flights.get i = some fl' :=
    .inr (LookupMap.get_of_get_remove hget).2
  unfold advanceSweep at h
  split at h
  · split at h
    · split at h
      · cases h; exact get_setFlight_payout hget rfl
      · cases h; exact hdrop hget
    · cases h; exact hdrop hget
  · split at h
    · cases h; exact get_setFlight_payout hget rfl
    · cases h; exact hdrop hget
  · cases h; exact get_setFlight_payout hget rfl
  · split at h
    · split at h
      · cases h; exact get_setFlight_payout hget rfl
      · cases h; exact hdrop hget
    · cases h; exact hdrop hget
  · split at h
    · cases h; exact hdrop hget
    · cases h; exact hdrop hget
  · cases h

theorem payout_of_advanceAnswer {reply : Reply} (h : c.advanceAnswer id index reply fl = some c')
    (hget : c'.flights.get i = some fl') :
    (i = id ∧ fl'.payout = fl.payout) ∨ c.flights.get i = some fl' := by
  unfold advanceAnswer at h
  split at h
  · split at h
    · cases h; exact get_setFlight_payout hget rfl
    · cases h
  · split at h
    · cases h; exact get_setFlight_payout hget rfl
    · cases h
  · cases h; exact get_setFlight_payout hget rfl
  · cases h

/-- Outside the registry a chain pays to the same wallet at each stage. -/
theorem payout_of_advance (hfl : c.flights.get id = some fl) (h : c.advance id ok fl = some c')
    (hget : c'.flights.get i = some fl') {x : Str × AccountId} (hx : fl'.payout = some x) :
    ∃ fl₀, c.flights.get i = some fl₀ ∧ fl₀.payout = some x := by
  have hsame (h : (i = id ∧ fl'.payout = fl.payout) ∨ c.flights.get i = some fl') :
      ∃ fl₀, c.flights.get i = some fl₀ ∧ fl₀.payout = some x := by
    rcases h with ⟨rfl, heq⟩ | hget
    · exact ⟨fl, hfl, heq.symm.trans hx⟩
    · exact ⟨fl', hget, hx⟩
  cases hsweep : fl.isSweep with
  | true =>
    have h : c.advanceSweep id ok fl = some c' := by
      cases fl <;> first | exact h | cases hsweep
    exact hsame (payout_of_advanceSweep h hget)
  | false =>
    rcases (advanced_of_advance h).get hget with ⟨rfl, back, hnext⟩ | ⟨-, hget⟩ | ⟨-, -, _, _, rfl⟩
    · refine hsame (.inl ⟨rfl, ?_⟩)
      -- The stages after a deletion or an export pay nothing.
      cases hnext with
      | sweep h => rw [hsweep] at h; cases h
      | finalizeAccepted => rfl
      | _ => cases hx
    · exact hsame (.inr hget)
    · cases hx

/-- What pays in flight paid to the same wallet before the step, or the step opened it under
the next id. -/
theorem payout_of_step (hstep : c.step l = some c') (hget : c'.flights.get i = some fl')
    {x : Str × AccountId} (hx : fl'.payout = some x) :
    (∃ fl, c.flights.get i = some fl ∧ fl.payout = some x) ∨
      ∃ predecessor deposit reserve op o p, l = .call predecessor deposit reserve op ∧
        i = c.nextId ∧ c'.nextId = i + 1 ∧
        c.callOutcome predecessor deposit reserve op = some o ∧ o.promise = some p ∧
        p.flight.payout = some x := by
  cases move_of_step hstep with
  | accepted hcall =>
    rcases get_accept hget with ⟨p, rfl, hp, rfl⟩ | hget
    · exact .inr ⟨_, _, _, _, _, p, rfl, rfl, rfl, hcall, hp, hx⟩
    · exact .inl ⟨_, hget, hx⟩
  | settled hfl _ ho =>
    rcases get_settle hget with ⟨p, rfl, hp, rfl⟩ | ⟨-, hget⟩
    -- Only the check of the balances goes on to another payout, with the same reclaim.
    · refine .inl ⟨_, hfl, ?_⟩
      cases ho <;> cases hp <;> exact hx
    · exact .inl ⟨_, hget, hx⟩
  | panicked =>
    rcases LookupMap.get_of_get_insert hget with ⟨-, rfl⟩ | ⟨-, hget⟩
    · cases hx
    · exact .inl ⟨_, hget, hx⟩
  | advanced hfl _ _ hadvance => exact .inl (payout_of_advance hfl hadvance hget hx)
  | answered hfl =>
    obtain ⟨fl₀, hfl₀, hanswer⟩ := Option.bind_eq_some_iff.mp hstep
    rcases payout_of_advanceAnswer hanswer hget with ⟨rfl, heq⟩ | hget
    · exact .inl ⟨_, hfl₀, heq.symm.trans hx⟩
    · exact .inl ⟨_, hget, hx⟩
  | _ => exact .inl ⟨_, hget, hx⟩

end Chain

/-! ## The start of a reclaim -/

/-- The transition is an accepted call that starts a reclaim of the key, at a time when
the main wallet of its entry is `d`. -/
inductive StartsReclaim (key : Str) (d : AccountId) : Transition Chain Label → Prop
  | sweep {c c' : Chain} {predecessor : AccountId} {deposit reserve : ℕ} {o : Outcome}
      {tlaId ft : AccountId} {name : Str} {sub : SubAccountEntry}
      (hcall : c.callOutcome predecessor deposit reserve (.reclaimSweepFt tlaId name ft) = some o)
      (hkey : subAccountKey tlaId name = key) (hsub : c.registry.subAccounts.get key = some sub)
      (hwallet : sub.mainWallet = d) :
      StartsReclaim key d ⟨c, .call predecessor deposit reserve (.reclaimSweepFt tlaId name ft), c'⟩
  | finalize {c c' : Chain} {predecessor : AccountId} {deposit reserve : ℕ} {o : Outcome}
      {tlaId : AccountId} {name : Str} {sub : SubAccountEntry}
      (hcall : c.callOutcome predecessor deposit reserve (.reclaimFinalize tlaId name) = some o)
      (hkey : subAccountKey tlaId name = key) (hsub : c.registry.subAccounts.get key = some sub)
      (hwallet : sub.mainWallet = d) :
      StartsReclaim key d ⟨c, .call predecessor deposit reserve (.reclaimFinalize tlaId name), c'⟩

/-- The transition is the accepted call with this id. -/
def Opens (id : ℕ) (t : Transition Chain Label) : Prop :=
  t.before.nextId = id ∧ t.after.nextId = id + 1

/-- A call that opens a payout is one that starts a reclaim. -/
theorem startsReclaim_of_payout {c c' : Chain} {predecessor : AccountId} {deposit reserve : ℕ}
    {op : Op} {o : Outcome} {p : Promise} {key : Str} {d : AccountId}
    (hcall : c.callOutcome predecessor deposit reserve op = some o) (hp : o.promise = some p)
    (hx : p.flight.payout = some (key, d)) :
    StartsReclaim key d ⟨c, .call predecessor deposit reserve op, c'⟩ := by
  cases (Chain.accepted_of_callOutcome hcall).2 with
  | reclaimSweepFt _ _ haccount _ hdest =>
    cases hp
    cases hx
    obtain ⟨sub, tla, hsub, -, -, hwallet⟩ := TlaRegistry.reclaimDestination_eq_ok.mp hdest
    exact .sweep hcall haccount.symm (haccount ▸ hsub) hwallet.symm
  | reclaimFinalize _ _ _ hdest =>
    cases hp
    obtain ⟨sub, tla, hsub, -, -, hwallet⟩ := TlaRegistry.reclaimDestination_eq_ok.mp hdest
    split at hx
    · cases hx
      exact .finalize hcall rfl hsub hwallet.symm
    · cases hx
      exact .finalize hcall rfl hsub hwallet.symm
  | resale _ hresale =>
    cases hp
    cases p with
    | sweepFt | checkBalances | finalizeDelete => cases hresale
    | _ => cases hx
  | buySubAccount =>
    cases hp
    split at hx <;> cases hx
  | _ => cases hp <;> cases hx

/-! ## Changes of a wallet -/

/-- The step is an accepted `rent_sub_account` of the key. -/
def Chain.Rents (c : Chain) (key : Str) : Label → Prop
  | .call predecessor deposit reserve (.rentSubAccount tlaId name ownerKey mainWallet) =>
    (c.callOutcome predecessor deposit reserve
      (.rentSubAccount tlaId name ownerKey mainWallet)).isSome ∧ subAccountKey tlaId name = key
  | _ => False

/-- The step is an accepted `set_main_wallet` on the key, or the callback of a sale of the
key that went through. -/
def Chain.MovesWallet (c : Chain) (key : Str) : Label → Prop
  | .call predecessor deposit reserve (.setMainWallet tlaId name newWallet) =>
    (c.callOutcome predecessor deposit reserve (.setMainWallet tlaId name newWallet)).isSome ∧
      subAccountKey tlaId name = key
  | .deliver id _ => ∃ b, c.flights.get id = some (.sold b true) ∧ b.key = key
  | _ => False

section

variable {env : Env} {r : TlaRegistry} {op : Op} {o : Outcome} {key : Str} {d : AccountId}

/-- The entry of the key, if it is there, pays to this wallet. -/
def TlaRegistry.PaysTo (r : TlaRegistry) (key : Str) (d : AccountId) : Prop :=
  ∀ sub ∈ r.subAccounts.get key, sub.mainWallet = d

theorem TlaRegistry.PaysTo.remove (h : r.PaysTo key d) (k : Str) :
    { r with subAccounts := r.subAccounts.remove k }.PaysTo key d := by
  intro sub hsub
  exact h sub (LookupMap.get_of_get_remove hsub).2

theorem TlaRegistry.PaysTo.insert (h : r.PaysTo key d) {k : Str} {sub' : SubAccountEntry}
    (hkeep : k = key → sub'.mainWallet = d) :
    { r with subAccounts := r.subAccounts.insert k sub' }.PaysTo key d := by
  intro sub hsub
  rcases LookupMap.get_of_get_insert hsub with ⟨hk, rfl⟩ | ⟨-, hsub⟩
  · exact hkeep hk.symm
  · exact h sub hsub

theorem Accepted.paysTo (h : Accepted env r op o) (hpays : r.PaysTo key d)
    (hrent : ∀ tlaId name ownerKey mainWallet,
      op = .rentSubAccount tlaId name ownerKey mainWallet → subAccountKey tlaId name ≠ key)
    (hset : ∀ tlaId name newWallet, op = .setMainWallet tlaId name newWallet →
      subAccountKey tlaId name ≠ key) : o.registry.PaysTo key d := by
  -- Another update of the entry keeps the wallet.
  have hamend {k : Str} {sub sub' : SubAccountEntry} (hsub : r.subAccounts.get k = some sub)
      (hwallet : sub'.mainWallet = sub.mainWallet) :
      { r with subAccounts := r.subAccounts.insert k sub' }.PaysTo key d := by
    refine hpays.insert ?_
    rintro rfl
    exact hwallet.trans (hpays sub hsub)
  cases h with
  | scheduleRetraction _ _ _ _ hsub => exact hamend hsub rfl
  | cancelRetraction _ _ hsub => exact hamend hsub rfl
  | renewSubAccount _ hsub => exact hamend hsub rfl
  | setMainWallet => exact hpays.insert fun hkey => absurd hkey (hset _ _ _ rfl)
  | rentSubAccount => exact hpays.insert fun hkey => absurd hkey (hrent _ _ _ _ rfl)
  | _ => exact hpays

theorem Settled.paysTo {fl : Flight} (h : Settled r fl o) (hpays : r.PaysTo key d)
    (hkeep : ∀ b, fl = .sold b true → b.key ≠ key) : o.registry.PaysTo key d := by
  cases h with
  | creationFailed => exact hpays.remove _
  | reclaimed => exact hpays.remove _
  | exported => exact hpays.remove _
  | sold => exact hpays.insert fun hkey => absurd hkey (hkeep _ rfl)
  | _ => exact hpays

end

/-- The wallet of an entry stays until a step moves it, or the name is rented again. -/
theorem Chain.paysTo_of_step {c c' : Chain} {l : Label} {key : Str} {d : AccountId}
    (hstep : c.step l = some c') (hpays : c.registry.PaysTo key d) (hrent : ¬ c.Rents key l)
    (hkeep : ¬ c.MovesWallet key l) : c'.registry.PaysTo key d := by
  rcases (move_of_step hstep).registry with
    heq | ⟨_, _, _, _, _, rfl, hcall, -, ho, heq⟩ | ⟨_, _, _, _, rfl, hfl, ho, heq⟩
  · rwa [heq]
  · rw [heq]
    refine ho.paysTo hpays ?_ ?_
    · rintro tlaId name ownerKey mainWallet rfl hkey
      exact hrent ⟨by rw [hcall]; rfl, hkey⟩
    · rintro tlaId name newWallet rfl hkey
      exact hkeep ⟨by rw [hcall]; rfl, hkey⟩
  · rw [heq]
    refine ho.paysTo hpays ?_
    rintro b rfl hkey
    exact hkeep ⟨b, hfl, hkey⟩

/-! ## Runs -/

/-- The run has the accepted call with this id. Unless the name was rented again since, that
call started the reclaim when the entry had the wallet, and the entry still has it if it is
still there and no later step of the run moved its wallet. -/
def StartedBy (tr : List (Transition Chain Label)) (c : Chain) (id : ℕ) (key : Str)
    (d : AccountId) : Prop :=
  ∃ tr₁ t tr₂, tr = tr₁ ++ t :: tr₂ ∧ Opens id t ∧
    ((∀ u ∈ tr₂, ¬ u.before.Rents key u.label) → StartsReclaim key d t ∧
      ((∀ u ∈ tr₂, ¬ u.before.MovesWallet key u.label) → c.registry.PaysTo key d))

theorem StartedBy.snoc {tr : List (Transition Chain Label)} {c c' : Chain} {l : Label} {id : ℕ}
    {key : Str} {d : AccountId} (h : StartedBy tr c id key d) (hstep : c.step l = some c') :
    StartedBy (tr ++ [⟨c, l, c'⟩]) c' id key d := by
  obtain ⟨tr₁, t, tr₂, rfl, hopens, hstarts⟩ := h
  refine ⟨tr₁, t, tr₂ ++ [⟨c, l, c'⟩], by simp, hopens, ?_⟩
  intro hrent
  obtain ⟨hstart, hpays⟩ := hstarts fun u hu => hrent u (List.mem_append_left _ hu)
  refine ⟨hstart, fun hkeep => ?_⟩
  exact Chain.paysTo_of_step hstep (hpays fun u hu => hkeep u (List.mem_append_left _ hu))
    (hrent ⟨c, l, c'⟩ (by simp)) (hkeep ⟨c, l, c'⟩ (by simp))

theorem StartsReclaim.paysTo {c c' : Chain} {l : Label} {key : Str} {d : AccountId}
    (h : StartsReclaim key d ⟨c, l, c'⟩) (hstep : c.step l = some c') :
    c'.registry.PaysTo key d := by
  have hpays {sub : SubAccountEntry} (hsub : c.registry.subAccounts.get key = some sub)
      (hwallet : sub.mainWallet = d) : c.registry.PaysTo key d := by
    intro sub' hsub'
    cases hsub.symm.trans hsub'
    exact hwallet
  cases h with
  | sweep _ _ hsub hwallet =>
    exact Chain.paysTo_of_step hstep (hpays hsub hwallet) not_false not_false
  | finalize _ _ hsub hwallet =>
    exact Chain.paysTo_of_step hstep (hpays hsub hwallet) not_false not_false

/-- Every payout in flight was started by the call that has its id. -/
theorem startedBy_of_run {g : Genesis} {tr : List (Transition Chain Label)} {c : Chain}
    (hrun : Run Chain.step (Chain.init g) tr c) {id : ℕ} {fl : Flight} {key : Str} {d : AccountId}
    (hget : c.flights.get id = some fl) (hx : fl.payout = some (key, d)) :
    StartedBy tr c id key d := by
  induction hrun generalizing fl with
  | nil => cases hget
  | @snoc tr c c' l hrun hstep ih =>
    rcases Chain.payout_of_step hstep hget hx with ⟨fl₀, hget₀, hx₀⟩ |
        ⟨predecessor, deposit, reserve, op, o, p, rfl, hid, hnext, hcall, hp, hx⟩
    · exact (ih hget₀ hx₀).snoc hstep
    · have hstarts : StartsReclaim key d ⟨c, .call predecessor deposit reserve op, c'⟩ :=
        startsReclaim_of_payout hcall hp hx
      exact ⟨tr, _, [], rfl, ⟨hid.symm, hnext⟩, fun _ => ⟨hstarts, fun _ => hstarts.paysTo hstep⟩⟩

/-- Every `ft_transfer` of a sweep and every `delete_account` goes back to the accepted call
that opened its chain. If the name was not rented again since, that call read the wallet off
the entry, and it is still the wallet of the entry when the payment is made, unless a step in
between moved it. -/
theorem pays_wallet_of_start {g : Genesis} {tr : List (Transition Chain Label)} {c : Chain}
    (hrun : Run Chain.step (Chain.init g) tr c) :
    ∀ tr₁ t tr₂, tr = tr₁ ++ t :: tr₂ → ∀ id ok fl a d, t.label = .deliver id ok →
      t.before.flights.get id = some fl → fl.pays = some (a, d) →
        StartedBy tr₁ t.before id a.chars d := by
  intro tr₁ t tr₂ htr id ok fl a d _ hfl hpays
  obtain ⟨hrun₁, -⟩ := hrun.split htr
  have hreached : t.before.Reached g := ⟨tr₁, hrun₁⟩
  refine startedBy_of_run hrun₁ hfl ?_
  cases fl with
  | sweepTransfer => cases hpays; rfl
  | deleteAccount a p =>
    cases hpays
    have haimed : a.chars = p.key := hreached.aimed hfl
    rw [haimed]
    rfl
  | _ => cases hpays

/-! ## A wallet changed on the way -/

namespace Sample

/-- Alice names another wallet while the deletion of `n.hos` is on its way. -/
def walletMoved : List Label := finalized ++ [call alice 1 (.setMainWallet tla name bob)]

end Sample

/-- The deletion pays to the old wallet. -/
theorem delete_pays_old_wallet :
    ∃ c c' : Chain, c.Reached Sample.genesis ∧
      c.flights.get 4 = some (.deleteAccount Sample.sub Sample.reclaim 5) ∧
      c.step (.deliver 4 true) = some c' ∧ c'.accounts Sample.sub = .absent ∧
      (c.registry.subAccounts.get Sample.sub.chars).map SubAccountEntry.mainWallet =
        some Sample.bob ∧ Sample.reclaim.destination = Sample.alice := by
  refine ⟨Sample.after Sample.walletMoved (by decide +kernel),
    (Chain.step _ (.deliver 4 true)).get (by decide +kernel), Sample.reached _ _, rfl,
    (Option.some_get _).symm, by decide +kernel, by decide +kernel, rfl⟩

/-- A reclaim without the change. -/
theorem pays_wallet_of_start_finalized :
    ∃ tr c, Run Chain.step (Chain.init Sample.genesis) tr c ∧
      ∀ tr₁ t tr₂, tr = tr₁ ++ t :: tr₂ → ∀ id ok fl a d, t.label = .deliver id ok →
        t.before.flights.get id = some fl → fl.pays = some (a, d) →
          StartedBy tr₁ t.before id a.chars d := by
  obtain ⟨tr, hrun, -⟩ :=
    Sample.exists_run (Sample.finalized ++ [.deliver 4 true]) (by decide +kernel)
  exact ⟨tr, _, hrun, pays_wallet_of_start hrun⟩

end HosTla
