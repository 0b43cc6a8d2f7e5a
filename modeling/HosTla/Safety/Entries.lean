-- SUMMARY: What a TLA and a rental keep as long as they last, and that nobody but its owner changes an entry that is not on sale.
import HosTla.Custody.Refinement
import HosTla.Safety.Authority
import HosTla.Safety.Sellable

/-!
# Entries

A step rents a key, amends an entry by a call of its owner, moves it to a buyer, removes
it, or leaves it as it is. The terms of a rental follow along whole runs, and so does the
protection of an owner who makes no call at all. A TLA lasts for ever.
-/

namespace HosTla

open Foundation

/-! ## TLAs -/

/-- The entry a later state may have for a TLA. -/
structure TlaEntry.Later (tla tla' : TlaEntry) : Prop where
  terms : tla'.terms = tla.terms
  expiresAt : tla.expiresAt ≤ tla'.expiresAt
  activated : tla.status ≠ .registered →
    tla'.status ≠ .registered ∧ tla'.activatedAt = tla.activatedAt

theorem TlaEntry.Later.refl (tla : TlaEntry) : tla.Later tla :=
  ⟨rfl, Nat.le_refl _, fun hstatus => ⟨hstatus, rfl⟩⟩

theorem TlaEntry.Later.trans {tla tla' tla'' : TlaEntry} (h : tla.Later tla')
    (h' : tla'.Later tla'') : tla.Later tla'' := by
  refine ⟨h'.terms.trans h.terms, Nat.le_trans h.expiresAt h'.expiresAt, fun hstatus => ?_⟩
  obtain ⟨hstatus', hat⟩ := h.activated hstatus
  obtain ⟨hstatus'', hat'⟩ := h'.activated hstatus'
  exact ⟨hstatus'', hat'.trans hat⟩

/-- A TLA ends within 64 bits, and has no end before it is activated. -/
def TlaEntry.Dated (tla : TlaEntry) : Prop :=
  tla.expiresAt ≤ u64Max ∧ (tla.status = .registered → tla.expiresAt = 0)

section

variable {env : Env} {r : TlaRegistry} {op : Op} {o : Outcome}

theorem Accepted.dated (h : Accepted env r op o)
    (hdated : ∀ tlaId tla, r.tlas.get tlaId = some tla → tla.Dated) :
    ∀ tlaId tla, o.registry.tlas.get tlaId = some tla → tla.Dated := by
  have hinsert {k : AccountId} {tla' : TlaEntry} (htla' : tla'.Dated) :
      ∀ tlaId tla, (r.tlas.insert k tla').get tlaId = some tla → tla.Dated := by
    intro tlaId tla htla
    rcases LookupMap.get_of_get_insert htla with ⟨-, rfl⟩ | ⟨-, htla⟩
    · exact htla'
    · exact hdated tlaId tla htla
  cases h with
  | registerTla => exact hinsert ⟨Nat.zero_le _, fun _ => rfl⟩
  | suspendTla _ htla => exact hinsert ⟨(hdated _ _ htla).1, nofun⟩
  | unsuspendTla _ htla => exact hinsert ⟨(hdated _ _ htla).1, nofun⟩
  | activateOpenTla | activateTla => exact hinsert ⟨Nat.min_le_right _ _, nofun⟩
  | renewTla _ _ _ hstatus =>
    refine hinsert ⟨Nat.min_le_right _ _, fun hregistered => ?_⟩
    rw [hstatus] at hregistered
    cases hregistered
  | _ => exact hdated

theorem Chain.Reached.dated {g : Genesis} {c : Chain} (h : c.Reached g) :
    ∀ tlaId tla, c.registry.tlas.get tlaId = some tla → tla.Dated := by
  refine h.registry (I := fun r => ∀ tlaId tla, r.tlas.get tlaId = some tla → tla.Dated) ?_ ?_ ?_
  · intro tlaId tla htla
    cases htla
  · intro env r op o hdated ho
    exact ho.dated hdated
  · intro r fl o hdated ho
    rw [ho.tlas]
    exact hdated

theorem Accepted.later (h : Accepted env r op o) {tlaId : AccountId} {tla : TlaEntry}
    (htla : r.tlas.get tlaId = some tla) (hdated : tla.Dated) :
    ∃ tla', o.registry.tlas.get tlaId = some tla' ∧ tla.Later tla' := by
  have hinsert {k : AccountId} {tla₀ tla' : TlaEntry} (htla₀ : r.tlas.get k = some tla₀)
      (hlater : tla₀.Dated → tla₀.Later tla') :
      ∃ tla'', (r.tlas.insert k tla').get tlaId = some tla'' ∧ tla.Later tla'' := by
    rw [LookupMap.get_insert]
    split
    · subst tlaId
      cases htla.symm.trans htla₀
      exact ⟨tla', rfl, hlater hdated⟩
    · exact ⟨tla, htla, .refl tla⟩
  cases h with
  | @registerTla k _ _ _ _ hnew =>
    have hne : tlaId ≠ k := by
      rintro rfl
      rw [hnew] at htla
      cases htla
    exact ⟨tla, (LookupMap.get_insert_ne hne).trans htla, .refl tla⟩
  | suspendTla _ htla₀ =>
    exact hinsert htla₀ fun _ => ⟨rfl, Nat.le_refl _, fun _ => ⟨nofun, rfl⟩⟩
  | unsuspendTla _ htla₀ =>
    exact hinsert htla₀ fun _ => ⟨rfl, Nat.le_refl _, fun _ => ⟨nofun, rfl⟩⟩
  | activateOpenTla _ htla₀ hstatus | activateTla _ _ _ htla₀ hstatus =>
    refine hinsert htla₀ fun hdated => ⟨by simp only [TlaEntry.terms], ?_, fun hnot => absurd hstatus hnot⟩
    rw [hdated.2 hstatus]
    exact Nat.zero_le _
  | @renewTla k tla₀ _ _ _ htla₀ =>
    refine hinsert htla₀ fun hdated => ⟨by simp only [TlaEntry.terms], ?_, fun hnot => ⟨hnot, rfl⟩⟩
    have hle : tla₀.expiresAt ≤ max env.blockTimestamp tla₀.expiresAt := le_max_right _ _
    have hfits := hdated.1
    simp only [satAdd]
    omega
  | _ => exact ⟨tla, htla, .refl tla⟩

end

/-- A TLA that is registered stays registered, and becomes later only. -/
theorem Chain.Reached.later_of_run {g : Genesis} {c c' : Chain} {tr : List (Transition Chain Label)}
    (h : c.Reached g) (hrun : Run Chain.step c tr c') {tlaId : AccountId} {tla : TlaEntry}
    (htla : c.registry.tlas.get tlaId = some tla) :
    ∃ tla', c'.registry.tlas.get tlaId = some tla' ∧ tla.Later tla' := by
  refine hrun.guarded (I := fun c => ∃ tla', c.registry.tlas.get tlaId = some tla' ∧
    tla.Later tla') (G := fun _ _ => True) ⟨tla, htla, .refl tla⟩ ?_ fun _ _ => trivial
  rintro c₁ l c₂ ⟨tr₁, hrun₁⟩ ⟨tla₁, htla₁, hlater₁⟩ - hstep
  have hdated := Chain.Reached.dated (h.run hrun₁) tlaId tla₁ htla₁
  rcases (Chain.move_of_step hstep).registry with
    heq | ⟨_, _, _, _, _, -, -, -, ho, heq⟩ | ⟨_, _, _, _, -, -, ho, heq⟩
  · exact ⟨tla₁, heq ▸ htla₁, hlater₁⟩
  · obtain ⟨tla₂, htla₂, hlater₂⟩ := ho.later htla₁ hdated
    exact ⟨tla₂, heq ▸ htla₂, hlater₁.trans hlater₂⟩
  · refine ⟨tla₁, ?_, hlater₁⟩
    rw [heq, ho.tlas]
    exact htla₁

/-- Once a TLA is registered it is never deleted, re-registered or given other terms, by
whatever calls: its type, category and licensee are kept, its end never moves to an earlier
time, and it is activated at most once. -/
theorem tla_terms_kept {g : Genesis} {c c' : Chain} {tr : List (Transition Chain Label)}
    (h : c.Reached g) (hrun : Run Chain.step c tr c') {tlaId : AccountId} {tla : TlaEntry}
    (htla : c.registry.tlas.get tlaId = some tla) :
    ∃ tla', c'.registry.tlas.get tlaId = some tla' ∧ tla'.tlaType = tla.tlaType ∧
      tla'.premiumCategory = tla.premiumCategory ∧ tla'.licensee = tla.licensee ∧
      tla.expiresAt ≤ tla'.expiresAt ∧
      (tla.status ≠ .registered →
        tla'.status ≠ .registered ∧ tla'.activatedAt = tla.activatedAt) := by
  obtain ⟨tla', htla', hlater⟩ := h.later_of_run hrun htla
  have hterms := hlater.terms
  simp only [TlaEntry.terms, Prod.mk.injEq] at hterms
  obtain ⟨htype, hcategory, hlicensee⟩ := hterms
  exact ⟨tla', htla', htype, hcategory, hlicensee, hlater.expiresAt, hlater.activated⟩

/-- The TLA of the sample is suspended. -/
theorem tla_terms_kept_suspended :
    ∃ c' tla tla',
      Sample.opened.step
        (Sample.call Sample.admin 0 (.suspendTla Sample.tla)) = some c' ∧
      Sample.opened.registry.tlas.get Sample.tla = some tla ∧
      c'.registry.tlas.get Sample.tla = some tla' ∧ tla'.licensee = tla.licensee := by
  have hnext : (Sample.opened.step
    (Sample.call Sample.admin 0 (.suspendTla Sample.tla))).isSome = true := by decide +kernel
  have htla : (Sample.opened.registry.tlas.get
    Sample.tla).isSome = true := by decide +kernel
  obtain ⟨c', hstep⟩ := Option.isSome_iff_exists.mp hnext
  obtain ⟨tla, htla⟩ := Option.isSome_iff_exists.mp htla
  obtain ⟨tla', htla', -, -, hlicensee, -⟩ := tla_terms_kept
    Sample.opened_reached (Run.nil.snoc hstep) htla
  exact ⟨c', tla, tla', hstep, htla, htla', hlicensee⟩

/-! ## Sub-accounts -/

/-- The entry a later state of the same rental may have: the place and the start of the
rental are kept, and it does not end earlier. -/
structure SubAccountEntry.Later (sub sub' : SubAccountEntry) : Prop where
  tlaId : sub'.tlaId = sub.tlaId
  rentedAt : sub'.rentedAt = sub.rentedAt
  expiresAt : min sub.expiresAt u64Max ≤ sub'.expiresAt

theorem SubAccountEntry.Later.refl (sub : SubAccountEntry) : sub.Later sub :=
  ⟨rfl, rfl, Nat.min_le_left _ _⟩

theorem SubAccountEntry.Later.trans {sub sub' sub'' : SubAccountEntry} (h : sub.Later sub')
    (h' : sub'.Later sub'') : sub.Later sub'' := by
  have hfirst := h.expiresAt
  have hsecond := h'.expiresAt
  refine ⟨h'.tlaId.trans h.tlaId, h'.rentedAt.trans h.rentedAt, ?_⟩
  omega

/-! ## One call or callback -/

/-- What an accepted call does to the entry at a key. -/
inductive EntryAccepted (env : Env) (r : TlaRegistry) (key : Str) :
    Op → Option SubAccountEntry → Prop
  | kept {op : Op} : EntryAccepted env r key op (r.subAccounts.get key)
  | rented {tlaId mainWallet : AccountId} {name : Str} {ownerKey : PublicKey}
      {entry : Option SubAccountEntry} (hkey : subAccountKey tlaId name = key)
      (hfree : r.subAccounts.get key = none) :
      EntryAccepted env r key (.rentSubAccount tlaId name ownerKey mainWallet) entry
  | amended {op : Op} {sub sub' : SubAccountEntry} (hsub : r.subAccounts.get key = some sub)
      (hcaller : env.predecessor = sub.owner) (howner : sub'.owner = sub.owner)
      (hlater : sub.Later sub') : EntryAccepted env r key op (some sub')

/-- What a callback does to the entry at a key. -/
inductive EntrySettled (r : TlaRegistry) (key : Str) : Flight → Option SubAccountEntry → Prop
  | kept {fl : Flight} : EntrySettled r key fl (r.subAccounts.get key)
  | sold {b : PendingBuy} {sub : SubAccountEntry} (hkey : b.key = key)
      (hsub : r.subAccounts.get key = some sub) :
      EntrySettled r key (.sold b true) (some { sub with
        owner := b.buyer
        mainWallet := b.buyer })
  | removed {fl : Flight} : EntrySettled r key fl none

section

variable {env : Env} {r : TlaRegistry} {op : Op} {o : Outcome}

theorem Accepted.entry (h : Accepted env r op o) (key : Str) :
    EntryAccepted env r key op (o.registry.subAccounts.get key) := by
  -- An update of the entry at `k` by its owner, seen from `key`.
  have hamend {k : Str} {sub sub' : SubAccountEntry} (hsub : r.subAccounts.get k = some sub)
      (hcaller : env.predecessor = sub.owner) (howner : sub'.owner = sub.owner)
      (hlater : sub.Later sub') :
      EntryAccepted env r key op ((r.subAccounts.insert k sub').get key) := by
    rw [LookupMap.get_insert]
    split
    · subst key
      exact .amended hsub hcaller howner hlater
    · exact .kept
  cases h with
  | scheduleRetraction _ _ _ _ hsub howner =>
    exact hamend hsub howner rfl ⟨rfl, rfl, Nat.min_le_left _ _⟩
  | cancelRetraction _ _ hsub howner =>
    exact hamend hsub howner rfl ⟨rfl, rfl, Nat.min_le_left _ _⟩
  | setMainWallet _ _ _ hsub howner =>
    exact hamend hsub howner rfl ⟨rfl, rfl, Nat.min_le_left _ _⟩
  | @renewSubAccount _ _ sub _ _ _ hsub _ howner =>
    refine hamend hsub howner rfl ⟨rfl, rfl, ?_⟩
    have hle : sub.expiresAt ≤ max env.blockTimestamp sub.expiresAt := le_max_right _ _
    simp only [satAdd]
    omega
  | rentSubAccount _ _ hfree =>
    simp only [Outcome.withPromise, LookupMap.get_insert]
    split
    · subst key
      exact .rented rfl hfree
    · exact .kept
  | _ => exact .kept

theorem Settled.entry {fl : Flight} (h : Settled r fl o) (key : Str) :
    EntrySettled r key fl (o.registry.subAccounts.get key) := by
  have hremove {k : Str} : EntrySettled r key fl ((r.subAccounts.remove k).get key) := by
    rw [LookupMap.get_remove]
    split
    · exact .removed
    · exact .kept
  cases h with
  | creationFailed | reclaimed | exported => exact hremove
  | sold hsub =>
    simp only [LookupMap.get_insert]
    split
    · subst key
      exact .sold rfl hsub
    · exact .kept
  | _ => exact .kept

end

/-! ## One step -/

def System.entry (s : System) (key : Str) : Option SubAccountEntry :=
  s.chain.registry.subAccounts.get key

inductive System.EntryStep (s : System) (key : Str) : Label → System → Prop
  | kept {l : Label} {s' : System} (hentry : s'.entry key = s.entry key)
      (hrental : s'.history.rentals key = s.history.rentals key) : EntryStep s key l s'
  | rented {l : Label} {s' : System} (hfree : s.entry key = none)
      (hrental : s'.history.rentals key = some s.chain.nextId) : EntryStep s key l s'
  | amended {predecessor : AccountId} {deposit reserve : ℕ} {op : Op} {s' : System}
      {sub sub' : SubAccountEntry} (hsub : s.entry key = some sub)
      (hsub' : s'.entry key = some sub') (hcaller : predecessor = sub.owner)
      (howner : sub'.owner = sub.owner) (hlater : sub.Later sub')
      (hrental : s'.history.rentals key = s.history.rentals key) :
      EntryStep s key (.call predecessor deposit reserve op) s'
  | sold {id : ℕ} {ok : Bool} {b : PendingBuy} {s' : System} {sub : SubAccountEntry}
      (hfl : s.chain.flights.get id = some (.sold b true)) (hkey : b.key = key)
      (hsub : s.entry key = some sub)
      (hsub' : s'.entry key = some { sub with owner := b.buyer, mainWallet := b.buyer })
      (hrental : s'.history.rentals key = s.history.rentals key) :
      EntryStep s key (.deliver id ok) s'
  | removed {l : Label} {s' : System} (hentry : s'.entry key = none)
      (hrental : s'.history.rentals key = s.history.rentals key) : EntryStep s key l s'

/-- A call that rents no account at the key leaves the rental of the key as it is. -/
theorem History.rentals_recordCall {h : History} {c : Chain} {predecessor : AccountId}
    {deposit reserve : ℕ} {op : Op} {o : Outcome} {key : Str}
    (hop : ∀ tlaId name ownerKey mainWallet, op = .rentSubAccount tlaId name ownerKey mainWallet →
      subAccountKey tlaId name ≠ key) :
    (h.recordCall c predecessor deposit reserve op o).rentals key = h.rentals key := by
  cases op with
  | rentSubAccount tlaId name ownerKey mainWallet =>
    exact Function.update_of_ne (hop tlaId name ownerKey mainWallet rfl).symm _ _
  | _ => rfl

theorem System.entryStep_of_step {s s' : System} {l : Label} (hstep : s.step l = some s')
    (key : Str) : s.EntryStep key l s' := by
  have hmoved : s.Moved l s' := moved_of_step hstep
  cases hmoved with
  | @accepted predecessor deposit reserve op o hcall ho =>
    have hentry := ho.entry key
    by_cases hrent : ∃ tlaId name ownerKey mainWallet,
        op = .rentSubAccount tlaId name ownerKey mainWallet ∧ subAccountKey tlaId name = key
    · obtain ⟨tlaId, name, ownerKey, mainWallet, rfl, rfl⟩ := hrent
      have hfree : s.entry (subAccountKey tlaId name) = none := by
        cases ho with
        | rentSubAccount _ _ hfree => exact hfree
        | configured hop => cases hop
        | resale hop => cases hop
      exact .rented hfree (Function.update_self _ _ _)
    · have hrental : (s.history.recordCall s.chain predecessor deposit reserve op o).rentals key =
          s.history.rentals key :=
        History.rentals_recordCall fun tlaId name ownerKey mainWallet hop hkey =>
          hrent ⟨tlaId, name, ownerKey, mainWallet, hop, hkey⟩
      generalize hnew : o.registry.subAccounts.get key = entry at hentry
      cases hentry with
      | kept => exact .kept hnew hrental
      | rented hkey => exact absurd ⟨_, _, _, _, rfl, hkey⟩ hrent
      | amended hsub hcaller howner hlater => exact .amended hsub hnew hcaller howner hlater hrental
  | @settled id ok fl o hfl hcallback ho =>
    have hentry := ho.entry key
    generalize hnew : o.registry.subAccounts.get key = entry at hentry
    cases hentry with
    | kept => exact .kept hnew rfl
    | sold hkey hsub => exact .sold hfl hkey hsub hnew rfl
    | removed => exact .removed hnew rfl
  | panicked => exact .kept rfl (by rw [History.recordReceipt_eq])
  | advanced _ _ _ hadvance =>
    refine .kept ?_ (by rw [History.recordReceipt_eq])
    exact congrArg (fun r => r.subAccounts.get key) (Chain.advanced_of_advance hadvance).registry
  | answered _ hanswer =>
    exact .kept (congrArg (fun r => r.subAccounts.get key) hanswer.registry) rfl
  | _ => exact .kept rfl rfl

/-! ## The terms of a rental -/

theorem System.nextId_le {s s' : System} {l : Label} (hstep : s.step l = some s') :
    s.chain.nextId ≤ s'.chain.nextId :=
  (Chain.move_of_step (step_chain hstep)).nextId_le

/-- Whatever owners, admins, buyers and callbacks do, an entry stays under its TLA and keeps
the start of its rental as long as the rental lasts, and its end never moves to an earlier
time. -/
theorem rental_terms_kept {g : Genesis} {s s' : System} {tr : List (Transition System Label)}
    (h : s.Reached g) (hrun : Run System.step s tr s') {key : Str} {sub sub' : SubAccountEntry}
    (hsub : s.entry key = some sub) (hsub' : s'.entry key = some sub')
    (hrental : s'.history.rentals key = s.history.rentals key) :
    sub'.tlaId = sub.tlaId ∧ sub'.rentedAt = sub.rentedAt ∧ sub.expiresAt ≤ sub'.expiresAt := by
  obtain ⟨i, hi⟩ := h.rental hsub
  have hlt := h.rental_lt hi
  -- While the rental is the same, an entry that is there is a later one of the first.
  let I (s₁ : System) : Prop := s.chain.nextId ≤ s₁.chain.nextId ∧
    (s₁.history.rentals key = some i → ∀ sub₁, s₁.entry key = some sub₁ → sub.Later sub₁)
  have hI : I s' := by
    refine hrun.guarded (I := I) (G := fun _ _ => True) ?_ ?_ fun _ _ => trivial
    · refine ⟨Nat.le_refl _, fun _ sub₁ hsub₁ => ?_⟩
      cases hsub.symm.trans hsub₁
      exact .refl sub
    · rintro s₁ l s₂ - ⟨hnext, hlater⟩ - hstep
      refine ⟨Nat.le_trans hnext (System.nextId_le hstep), fun hrental sub₂ hsub₂ => ?_⟩
      cases System.entryStep_of_step hstep key with
      | kept hentry hsame => exact hlater (hsame ▸ hrental) sub₂ (hentry ▸ hsub₂)
      | rented _ hnew =>
        -- A new rental has an id that is not yet in use.
        rw [hnew, Option.some.injEq] at hrental
        omega
      | @amended _ _ _ _ _ sub₁ sub₂' hsub₁ hsub₂' _ _ hstepLater hsame =>
        cases hsub₂'.symm.trans hsub₂
        exact (hlater (hsame ▸ hrental) sub₁ hsub₁).trans hstepLater
      | @sold _ _ _ _ sub₁ _ _ hsub₁ hsub₂' hsame =>
        cases hsub₂'.symm.trans hsub₂
        have hfirst := hlater (hsame ▸ hrental) sub₁ hsub₁
        exact ⟨hfirst.tlaId, hfirst.rentedAt, hfirst.expiresAt⟩
      | removed hnone => rw [hnone] at hsub₂; cases hsub₂
  have hlater := hI.2 (hrental.trans hi) sub' hsub'
  refine ⟨hlater.tlaId, hlater.rentedAt, ?_⟩
  have hfits := h.chain.datesFit.2 key sub hsub
  have hexpires := hlater.expiresAt
  rwa [Nat.min_eq_left hfits] at hexpires

namespace Sample

/-- The state after one more step that goes through. -/
def next (s : System) (l : Label) (h : (s.step l).isSome = true) : System := (s.step l).get h

theorem run_next {s : System} {l : Label} (h : (s.step l).isSome = true) :
    Run System.step s [⟨s, l, next s l h⟩] (next s l h) :=
  Run.nil.snoc (Option.some_get h).symm

def renewed : System :=
  next settled (call alice (100 * oneNear) (.renewSubAccount tla name)) (by decide +kernel)

/-- Bob tries to list the account. -/
def touched : System :=
  next settled (call bob 1 (.listSubAccount tla name 7)) (by decide +kernel)

end Sample

theorem rental_terms_kept_renewed :
    ∃ sub sub', Sample.settled.entry Sample.sub.chars = some sub ∧
      Sample.renewed.entry Sample.sub.chars = some sub' ∧
      sub'.tlaId = sub.tlaId ∧ sub'.rentedAt = sub.rentedAt ∧ sub.expiresAt ≤ sub'.expiresAt := by
  have hsub : (Sample.settled.entry Sample.sub.chars).isSome = true := by decide +kernel
  have hsub' : (Sample.renewed.entry Sample.sub.chars).isSome = true := by decide +kernel
  have hrental : Sample.renewed.history.rentals Sample.sub.chars =
    Sample.settled.history.rentals Sample.sub.chars := by decide +kernel
  obtain ⟨sub, hsub⟩ := Option.isSome_iff_exists.mp hsub
  obtain ⟨sub', hsub'⟩ := Option.isSome_iff_exists.mp hsub'
  exact ⟨sub, sub', hsub, hsub', rental_terms_kept (Sample.history_reached _ _)
    (Sample.run_next (by decide +kernel)) hsub hsub' hrental⟩

/-! ## Owners who make no call -/

/-- Nobody can buy the account: it is not listed, no offer is accepted, and no sale of it is
in flight. -/
structure System.OffMarket (s : System) (key : Str) : Prop where
  listing : s.chain.registry.listings.get key = none
  offer : s.chain.registry.acceptedOffers.get key = none
  sale : ∀ i b, s.chain.saleOf i = some b → b.key ≠ key

section

variable {env : Env} {r : TlaRegistry} {op : Op} {o : Outcome} {key : Str}

theorem Locked.onMarket {buyer : AccountId} {deposit price : ℕ} {listings : LookupMap Str Listing}
    {acceptedOffers : LookupMap Str AcceptedOffer}
    (h : Locked r key buyer deposit listings acceptedOffers price) :
    r.listings.get key ≠ none ∨ r.acceptedOffers.get key ≠ none := by
  cases h with
  | offer hoffer => exact .inr (by rw [hoffer]; exact Option.some_ne_none _)
  | listing _ hlisting => exact .inl (by rw [hlisting]; exact Option.some_ne_none _)

/-- Only the owner puts an account on the market. -/
theorem Accepted.offMarket (h : Accepted env r op o) (hlisting : r.listings.get key = none)
    (hoffer : r.acceptedOffers.get key = none)
    (hcaller : ∀ sub, r.subAccounts.get key = some sub → env.predecessor ≠ sub.owner) :
    o.registry.listings.get key = none ∧ o.registry.acceptedOffers.get key = none := by
  have hseller {k : Str} {tlaId : AccountId}
      (hsell : r.assertSellable env k tlaId = .ok env.predecessor) : key ≠ k := by
    rintro rfl
    obtain ⟨_, sub, _, -, -, hsub, -, -, -, -, howner⟩ := TlaRegistry.assertSellable_eq_ok.mp hsell
    exact hcaller sub hsub howner
  cases h with
  | listSubAccount _ _ _ _ hsell =>
    exact ⟨(LookupMap.get_insert_ne (hseller hsell)).trans hlisting, hoffer⟩
  | acceptOffer _ _ _ _ hsell =>
    exact ⟨hlisting, (LookupMap.get_insert_ne (hseller hsell)).trans hoffer⟩
  | unlistSubAccount =>
    refine ⟨?_, hoffer⟩
    simp only [Outcome.of, LookupMap.get_remove, hlisting, ite_self]
  | revokeOffer =>
    refine ⟨hlisting, ?_⟩
    simp only [Outcome.of, LookupMap.get_remove, hoffer, ite_self]
  | @buySubAccount tlaId _ _ name _ _ _ _ _ _ _ hlock =>
    have hne : key ≠ subAccountKey tlaId name := by
      rintro rfl
      rcases hlock.onMarket with hon | hon
      · exact hon hlisting
      · exact hon hoffer
    cases hlock with
    | offer => exact ⟨hlisting, (LookupMap.get_insert_ne hne).trans hoffer⟩
    | listing => exact ⟨(LookupMap.get_insert_ne hne).trans hlisting, hoffer⟩
  | _ => exact ⟨hlisting, hoffer⟩

theorem Settled.offMarket {fl : Flight} (h : Settled r fl o) (hlisting : r.listings.get key = none)
    (hoffer : r.acceptedOffers.get key = none) :
    o.registry.listings.get key = none ∧ o.registry.acceptedOffers.get key = none := by
  have hclear {k : Str} : (r.clearSettling k).listings.get key = none ∧
      (r.clearSettling k).acceptedOffers.get key = none := by
    simp only [TlaRegistry.clearSettling, LookupMap.get_modify]
    constructor
    · split
      · subst key
        rw [hlisting]
        rfl
      · exact hlisting
    · split
      · subst key
        rw [hoffer]
        rfl
      · exact hoffer
  cases h with
  | reclaimed | exported | sold =>
    simp only [Outcome.of, LookupMap.get_remove, hlisting, hoffer, ite_self, and_self]
  | saleBlocked | saleVoid | saleFailed => exact hclear
  | _ => exact ⟨hlisting, hoffer⟩

end

theorem System.OffMarket.step {s s' : System} {l : Label} {key : Str} (hoff : s.OffMarket key)
    (hstep : s.step l = some s')
    (hcaller : ∀ predecessor deposit reserve op sub, l = .call predecessor deposit reserve op →
      s.entry key = some sub → predecessor ≠ sub.owner) : s'.OffMarket key := by
  have hmove := Chain.move_of_step (System.step_chain hstep)
  have hrecords : s'.chain.registry.listings.get key = none ∧
      s'.chain.registry.acceptedOffers.get key = none := by
    rcases hmove.registry with
      heq | ⟨predecessor, deposit, reserve, op, o, hl, -, -, ho, heq⟩ | ⟨_, _, _, _, -, -, ho, heq⟩
    · rw [heq]
      exact ⟨hoff.listing, hoff.offer⟩
    · rw [heq]
      exact ho.offMarket hoff.listing hoff.offer fun sub => hcaller _ _ _ _ sub hl
    · rw [heq]
      exact ho.offMarket hoff.listing hoff.offer
  refine ⟨hrecords.1, hrecords.2, fun i b hb => ?_⟩
  obtain ⟨fl, hfl, hselling⟩ := Option.bind_eq_some_iff.mp hb
  rcases hmove.carried Flight.selling_carried hfl hselling with
    ⟨fl₀, hfl₀, hselling₀⟩ | ⟨predecessor, deposit, reserve, op, o, p, -, -, hcall, -, hp, rfl⟩
  · exact hoff.sale i b (Option.bind_eq_some_iff.mpr ⟨fl₀, hfl₀, hselling₀⟩)
  · -- A sale opens on a record that is there.
    obtain ⟨-, ho⟩ := Chain.accepted_of_callOutcome hcall
    obtain ⟨-, -, -, -, -, -, hlock⟩ := ho.buy_of_selling hp hselling
    rintro rfl
    rcases hlock.onMarket with hon | hon
    · exact hon hoff.listing
    · exact hon hoff.offer

/-- The account makes no call. -/
def Silent (account : AccountId) (_ : System) (l : Label) : Prop :=
  ∀ predecessor deposit reserve op, l = .call predecessor deposit reserve op →
    predecessor ≠ account

/-- While the owner of an entry that is not on the market makes no call, whatever everybody
else calls and in whatever order messages arrive, the rental either is over or has its entry
unchanged, and it is still not on the market. -/
theorem entry_kept_of_silent_owner {g : Genesis} {s s' : System}
    {tr : List (Transition System Label)} (h : s.Reached g) (hrun : Run System.step s tr s')
    {key : Str} {sub : SubAccountEntry} (hsub : s.entry key = some sub) (hoff : s.OffMarket key)
    (hsilent : Meets (Silent sub.owner) tr)
    (hrental : s'.history.rentals key = s.history.rentals key) :
    s'.entry key = none ∨ (s'.entry key = some sub ∧ s'.OffMarket key) := by
  obtain ⟨i, hi⟩ := h.rental hsub
  have hlt := h.rental_lt hi
  let I (s₁ : System) : Prop := s.chain.nextId ≤ s₁.chain.nextId ∧
    (s₁.history.rentals key = some i →
      s₁.entry key = none ∨ (s₁.entry key = some sub ∧ s₁.OffMarket key))
  have hI : I s' := by
    refine hrun.guarded (I := I) ⟨Nat.le_refl _, fun _ => .inr ⟨hsub, hoff⟩⟩ ?_ hsilent
    rintro s₁ l s₂ - ⟨hnext, hentry⟩ hquiet hstep
    refine ⟨Nat.le_trans hnext (System.nextId_le hstep), fun hrental => ?_⟩
    have hentryStep := System.entryStep_of_step hstep key
    have hsame : s₁.history.rentals key = some i := by
      cases hentryStep with
      | rented _ hnew =>
        rw [hnew, Option.some.injEq] at hrental
        omega
      | kept _ hsame | amended _ _ _ _ _ hsame => exact hsame ▸ hrental
      | sold _ _ _ _ hsame | removed _ hsame => exact hsame ▸ hrental
    rcases hentry hsame with hnone | ⟨hsub₁, hoff₁⟩
    · -- The rental is over, and the entry does not come back.
      left
      cases hentryStep with
      | kept hentry => exact hentry.trans hnone
      | rented _ hnew =>
        rw [hnew, Option.some.injEq] at hrental
        omega
      | amended hsub₁ => rw [hnone] at hsub₁; cases hsub₁
      | sold _ _ hsub₁ => rw [hnone] at hsub₁; cases hsub₁
      | removed hnone => exact hnone
    · have hoff₂ : s₂.OffMarket key := by
        refine hoff₁.step hstep fun predecessor deposit reserve op sub₁ hl hsub₁' => ?_
        cases hsub₁.symm.trans hsub₁'
        exact hquiet predecessor deposit reserve op hl
      cases hentryStep with
      | kept hentry => exact .inr ⟨hentry.trans hsub₁, hoff₂⟩
      | rented hfree => rw [hsub₁] at hfree; cases hfree
      | amended hsub₁' _ hcaller =>
        cases hsub₁.symm.trans hsub₁'
        exact absurd hcaller (hquiet _ _ _ _ rfl)
      | sold hfl hkey => exact absurd hkey (hoff₁.sale _ _ (Chain.saleOf_of_get hfl))
      | removed hnone => exact .inl hnone
  exact hI.2 (hrental.trans hi)

theorem entry_kept_of_silent_owner_touched :
    Sample.touched.entry Sample.sub.chars = none ∨
      (Sample.touched.entry Sample.sub.chars = Sample.settled.entry Sample.sub.chars ∧
        Sample.touched.OffMarket Sample.sub.chars) := by
  have hsub : ∃ sub ∈ Sample.settled.entry Sample.sub.chars, sub.owner = Sample.alice := by
    decide +kernel
  have hrental : Sample.touched.history.rentals Sample.sub.chars =
    Sample.settled.history.rentals Sample.sub.chars := by decide +kernel
  have hnosale : ∀ i ∈ Sample.settled.chain.flights.keys, Sample.settled.chain.saleOf i = none := by
    decide +kernel
  obtain ⟨sub, hsub, howner⟩ := hsub
  have hoff : Sample.settled.OffMarket Sample.sub.chars := by
    refine ⟨by decide +kernel, by decide +kernel, fun i b hb => ?_⟩
    obtain ⟨fl, hfl, -⟩ := Option.bind_eq_some_iff.mp hb
    rw [hnosale i ((Sample.settled.chain.flights.mem_keys i).mpr (by rw [hfl]; rfl))] at hb
    cases hb
  have hkept := entry_kept_of_silent_owner (Sample.history_reached _ _)
    (Sample.run_next (s := Sample.settled) (by decide +kernel)) hsub hoff ?_ hrental
  · rwa [hsub]
  · intro t ht predecessor deposit reserve op hl
    rw [List.mem_singleton] at ht
    subst ht
    cases hl
    rw [howner]
    decide

end HosTla
