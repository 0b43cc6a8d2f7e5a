-- SUMMARY: Until the grace of a rental or of its TLA ends, nobody can take the account, unless its owner retracts or an admin exports it.
import HosTla.Safety.Entries
import HosTla.Safety.Keys
import HosTla.Safety.Orphans
import HosTla.Safety.Years

/-!
# Tenure

An entry goes when its creation fails, at a reclaim, and at an export. A creation and an
export have their own calls, and a reclaim looks at the clock, at the TLA and at the entry,
which others may amend in the meantime. The account goes with a deletion only, and no other
code gets on it.
-/

namespace HosTla

open Foundation

/-! ## Chains that end a rental -/

/-- The key whose entry a chain may remove. -/
def Flight.ending : Flight → Option Str
  | .createCall p | .createBatch p _ _ | .created p _ => some p.key
  | .reclaimQueries _ p _ _ | .finalizeCall _ p | .deleteAccount _ p _ => some p.key
  | .reclaimFinalized p _ => some p.key
  | .exportCall _ tlaId name | .addKey _ tlaId name _ _ => some (subAccountKey tlaId name)
  | .exportResolved _ tlaId name _ | .exportSettled tlaId name _ =>
    some (subAccountKey tlaId name)
  | _ => none

theorem Flight.isSweep_ending {fl : Flight} (h : fl.isSweep = true) : fl.ending = none := by
  cases fl <;> first | rfl | cases h

theorem Flight.ending_carried : Flight.Carried Flight.ending where
  next := by
    intro self fl fl' back x hnext hx
    cases hnext with
    | sweep _ h => rw [isSweep_ending h] at hx; cases hx
    | _ => exact hx
  callback := by
    intro r fl o p x ho hp hx
    cases ho <;> cases hp <;> exact hx
  panicked := by
    intro fl x hx
    cases hx
  reclaimAnswer := rfl
  buyAnswer := rfl
  sweep := isSweep_ending
  refund := rfl

/-- The account a call exports, or retracts. -/
def Op.givesUp : Op → Option Str
  | .exportSubAccount tlaId name | .scheduleRetraction tlaId name =>
    some (subAccountKey tlaId name)
  | _ => none

section

variable {env : Env} {r : TlaRegistry} {op : Op} {o : Outcome} {key : Str}

/-- A chain that may end a rental is opened on a free key, for a reclaimable entry, or by an
export. -/
theorem Accepted.of_ending (h : Accepted env r op o) {p : Promise} (hp : o.promise = some p)
    (hkey : p.flight.ending = some key) :
    r.subAccounts.get key = none ∨
      (∃ tlaId name destination, subAccountKey tlaId name = key ∧
        r.reclaimDestination env tlaId key = .ok destination) ∨
      op.givesUp = some key := by
  cases h with
  | rentSubAccount _ _ hfree =>
    cases hp
    cases hkey
    exact .inl hfree
  | reclaimFinalize _ _ _ hdest =>
    cases hp
    split at hkey <;> cases hkey <;> exact .inr (.inl ⟨_, _, _, rfl, hdest⟩)
  | exportSubAccount =>
    cases hp
    cases hkey
    exact .inr (.inr rfl)
  | buySubAccount =>
    cases hp
    split at hkey <;> cases hkey
  | resale _ hresale =>
    cases hp
    cases p with
    | resaleUnlock | resaleAbort => cases hkey
    | _ => cases hresale
  | _ => cases hp <;> cases hkey

/-! ## One call or callback -/

/-- Only a call that schedules a retraction leaves one where there was none. -/
theorem Accepted.retractionAt (h : Accepted env r op o) {sub sub' : SubAccountEntry}
    (hsub : r.subAccounts.get key = some sub) (hret : sub.retractionAt = none)
    (hop : op.givesUp ≠ some key) (hsub' : o.registry.subAccounts.get key = some sub') :
    sub'.retractionAt = none := by
  have hsame (hget : r.subAccounts.get key = some sub') : sub'.retractionAt = none := by
    cases hsub.symm.trans hget
    exact hret
  have hamend {k : Str} {sub₁ sub₂ : SubAccountEntry} (hsub₁ : r.subAccounts.get k = some sub₁)
      (heq : sub₁.retractionAt = none → sub₂.retractionAt = none)
      (hget : (r.subAccounts.insert k sub₂).get key = some sub') : sub'.retractionAt = none := by
    rcases LookupMap.get_of_get_insert hget with ⟨rfl, rfl⟩ | ⟨-, hget⟩
    · cases hsub.symm.trans hsub₁
      exact heq hret
    · exact hsame hget
  cases h with
  | scheduleRetraction =>
    rcases LookupMap.get_of_get_insert hsub' with ⟨rfl, -⟩ | ⟨-, hget⟩
    · exact absurd rfl hop
    · exact hsame hget
  | cancelRetraction _ _ hsub₁ => exact hamend hsub₁ (fun _ => rfl) hsub'
  | setMainWallet _ _ _ hsub₁ | renewSubAccount _ hsub₁ =>
    refine hamend hsub₁ ?_ hsub'
    exact fun hret => hret
  | rentSubAccount =>
    rcases LookupMap.get_of_get_insert hsub' with ⟨-, rfl⟩ | ⟨-, hget⟩
    · rfl
    · exact hsame hget
  | configured hop => cases op <;> cases hop <;> exact hsame hsub'
  | resale hop => cases op <;> cases hop <;> exact hsame hsub'
  | _ => exact hsame hsub'

/-- An accepted call that gives the account up neither way leaves its entry. -/
theorem Accepted.tenure (h : Accepted env r op o) {sub : SubAccountEntry}
    (hsub : r.subAccounts.get key = some sub) (hret : sub.retractionAt = none)
    (hop : op.givesUp ≠ some key) :
    ∃ sub', o.registry.subAccounts.get key = some sub' ∧ sub.Later sub' ∧
      sub'.retractionAt = none := by
  have hentry := h.entry key
  generalize hnew : o.registry.subAccounts.get key = entry at hentry
  cases hentry with
  | kept =>
    rw [hsub] at hnew ⊢
    exact ⟨sub, rfl, .refl sub, hret⟩
  | rented _ hfree => rw [hsub] at hfree; cases hfree
  | amended hsub₁ _ _ hlater =>
    cases hsub.symm.trans hsub₁
    exact ⟨_, rfl, hlater, h.retractionAt hsub hret hop hnew⟩

/-- A callback of a chain that does not end the rental leaves the entry. -/
theorem Settled.tenure {fl : Flight} (h : Settled r fl o) {sub : SubAccountEntry}
    (hsub : r.subAccounts.get key = some sub) (hret : sub.retractionAt = none)
    (hfl : fl.ending ≠ some key) :
    ∃ sub', o.registry.subAccounts.get key = some sub' ∧ sub.Later sub' ∧
      sub'.retractionAt = none := by
  have hremove {k : Str} (hk : k ≠ key) :
      ∃ sub', (r.subAccounts.remove k).get key = some sub' ∧ sub.Later sub' ∧
        sub'.retractionAt = none :=
    ⟨sub, (LookupMap.get_remove_ne hk.symm).trans hsub, .refl sub, hret⟩
  cases h with
  | creationFailed | reclaimed | exported => exact hremove fun hk => hfl (congrArg some hk)
  | @sold b sub₁ hsub₁ =>
    by_cases hk : key = b.key
    · subst hk
      cases hsub.symm.trans hsub₁
      exact ⟨_, LookupMap.get_insert_self _ _ _, ⟨rfl, rfl, Nat.min_le_left _ _⟩, hret⟩
    · exact ⟨sub, (LookupMap.get_insert_ne hk).trans hsub, .refl sub, hret⟩
  | _ => exact ⟨sub, hsub, .refl sub, hret⟩

end

/-! ## Time -/

/-- Before both graces end, an entry without a retraction is not reclaimable. -/
theorem lifecycle_ne_reclaimable {sub sub' : SubAccountEntry} {tla tla' : TlaEntry}
    {notice now : ℕ} (hlater : sub.Later sub') (hfits : sub.expiresAt ≤ u64Max)
    (hret : sub'.retractionAt = none) (hexpires : tla.expiresAt ≤ tla'.expiresAt)
    (hsubEnd : now < satAdd u64Max sub.expiresAt gracePeriodNs)
    (htlaEnd : now < satAdd u64Max tla.expiresAt gracePeriodNs) :
    effectiveSubLifecycle sub' tla' notice now ≠ .reclaimable := by
  have hsubLater := hlater.expiresAt
  rw [Nat.min_eq_left hfits] at hsubLater
  rw [Ne, effectiveSubLifecycle_eq_reclaimable, TlaEntry.lifecycle_eq_reclaimable]
  rintro (⟨-, -, htla⟩ | ⟨t, ht, -⟩ | hlapsed)
  · simp only [satAdd] at htla htlaEnd
    omega
  · rw [hret] at ht
    cases ht
  · rw [SubAccountEntry.lifecycle, expiryLifecycle_eq_reclaimable] at hlapsed
    simp only [satAdd] at hlapsed hsubEnd
    omega

/-! ## The account -/

/-- The locker on the account may get another owner key, and nothing else. -/
def SubAccountLocker.SameCustody (locker locker' : SubAccountLocker) : Prop :=
  locker'.registry = locker.registry ∧ locker'.state = locker.state

namespace Chain

variable {c c' : Chain} {l : Label}

/-- A receipt of a chain that does not end the rental leaves the locker on the account. -/
theorem Receipt.custody {id : ℕ} {ok : Bool} {fl : Flight} (h : c.Receipt id ok fl c')
    {a : AccountId} {locker : SubAccountLocker} (hlocker : c.accounts a = .locker locker [])
    (hending : fl.ending ≠ some a.chars) (haimed : fl.Aimed)
    (hexports : ∀ b tlaId name, fl.exports = some (b, tlaId, name) →
      b.chars = subAccountKey tlaId name) :
    ∃ locker', c'.accounts a = .locker locker' [] ∧ locker.SameCustody locker' := by
  have hother (c₀ : Chain) {b : AccountId} {state : Account} (hsame : c₀.accounts = c.accounts)
      (hne : a ≠ b) :
      ∃ locker', (c₀.setAccount b state).accounts a = .locker locker' [] ∧
        locker.SameCustody locker' := by
    rw [accounts_setAccount_ne hne, hsame]
    exact ⟨locker, hlocker, rfl, rfl⟩
  cases h with
  | @created _ b _ habsent =>
    refine hother _ rfl ?_
    rintro rfl
    rw [habsent] at hlocker
    cases hlocker
  | @deleted b p =>
    refine hother _ rfl ?_
    rintro rfl
    exact hending (congrArg some (Eq.symm haimed))
  | @exportAccepted b tlaId name | @keyAdded b tlaId name | @exportResolved b tlaId name =>
    refine hother _ rfl ?_
    rintro rfl
    exact hending (congrArg some (hexports _ _ _ rfl).symm)
  | @transferred b _ locker₀ keys _ hlocker₀ =>
    by_cases heq : a = b
    · subst heq
      cases hlocker.symm.trans hlocker₀
      exact ⟨_, accounts_setAccount_self _ _ _, rfl, rfl⟩
    · exact hother _ rfl heq
  | _ => exact ⟨locker, hlocker, rfl, rfl⟩

/-- A move of chains that do not end the rental leaves the locker on the account. -/
theorem Reached.custody_of_move {g : Genesis} (hc : c.Reached g) (hmove : c.Move l c')
    {a : AccountId} {locker : SubAccountLocker} (hlocker : c.accounts a = .locker locker [])
    (hquiet : ∀ id fl, c.flights.get id = some fl → fl.ending ≠ some a.chars) :
    ∃ locker', c'.accounts a = .locker locker' [] ∧ locker.SameCustody locker' := by
  cases hmove with
  | advanced hfl _ _ hadvance =>
    refine (receipt_of_advance hadvance).custody hlocker (hquiet _ _ hfl) (hc.aimed hfl) ?_
    intro b tlaId name hx
    exact hc.account_of_exports hfl hx
  | answered _ hanswer => cases hanswer <;> exact ⟨locker, hlocker, rfl, rfl⟩
  | @foreign account present hfree =>
    have hne : a ≠ account := by
      rintro rfl
      exact hfree _ hlocker
    exact ⟨locker, (accounts_setAccount_ne hne).trans hlocker, rfl, rfl⟩
  | _ => exact ⟨locker, hlocker, rfl, rfl⟩

end Chain

/-! ## Runs -/

/-- The account is what it was at first: under its locker, with an entry that has kept its
terms, and with no chain under way that ends the rental. -/
structure Chain.Tenanted (c : Chain) (a : AccountId) (sub : SubAccountEntry)
    (locker : SubAccountLocker) : Prop where
  entry : ∃ sub', c.registry.subAccounts.get a.chars = some sub' ∧ sub.Later sub' ∧
    sub'.retractionAt = none
  account : ∃ locker', c.accounts a = .locker locker' [] ∧ locker.SameCustody locker'
  quiet : ∀ id fl, c.flights.get id = some fl → fl.ending ≠ some a.chars

/-- The registry takes no call that exports the account at `key` or retracts it. -/
def KeepsTenure (key : Str) (c : Chain) : Label → Prop
  | .call predecessor deposit reserve op =>
    (c.callOutcome predecessor deposit reserve op).isSome = true → op.givesUp ≠ some key
  | _ => True

/-- Under a TLA without a dot, a key is read in the one way it was rented. -/
theorem Chain.Reached.tlaId_of_topLevel {g : Genesis} {c : Chain} (h : c.Reached g)
    {tlaId : AccountId} {name : Str} {sub : SubAccountEntry}
    (hsub : c.registry.subAccounts.get (subAccountKey tlaId name) = some sub)
    (htop : '.' ∉ sub.tlaId.chars) : tlaId = sub.tlaId := by
  obtain ⟨name₀, hname₀, hkey⟩ := h.keyedByTla _ _ (TlaRegistry.custody_holder_of_get hsub)
  have hname₀ := not_mem_dot_of_nameInvalidReason hname₀
  -- The one dot of the key is the one between the parts, in both readings.
  have hdots := congrArg (List.count '.') hkey
  simp only [subAccountKey, List.count_append, List.count_cons_self,
    List.count_eq_zero.mpr hname₀, List.count_eq_zero.mpr htop] at hdots
  have hname : '.' ∉ name := List.count_eq_zero.mp (by omega)
  exact ((h.tlaId_eq_iff hsub).mpr hname).symm

namespace Chain.Tenanted

variable {g : Genesis} {c c' : Chain} {l : Label} {a : AccountId} {sub : SubAccountEntry}
  {tla tla' : TlaEntry} {locker : SubAccountLocker}

/-- No reclaim of the account is accepted before both graces end. -/
theorem destination_ne (h : c.Tenanted a sub locker) (hc : c.Reached g)
    (htop : '.' ∉ sub.tlaId.chars) (hfits : sub.expiresAt ≤ u64Max)
    (htla' : c.registry.tlas.get sub.tlaId = some tla') (hexpires : tla.expiresAt ≤ tla'.expiresAt)
    (hsubEnd : c.now < satAdd u64Max sub.expiresAt gracePeriodNs)
    (htlaEnd : c.now < satAdd u64Max tla.expiresAt gracePeriodNs) {predecessor tlaId : AccountId}
    {deposit reserve : ℕ} {name : Str} (hkey : subAccountKey tlaId name = a.chars)
    (destination : AccountId) :
    c.registry.reclaimDestination (c.callEnv predecessor deposit reserve) tlaId a.chars ≠
      .ok destination := by
  intro hdest
  obtain ⟨sub₁, tla₁, hsub₁, htla₁, hlife, -⟩ := TlaRegistry.reclaimDestination_eq_ok.mp hdest
  obtain ⟨sub', hsub', hlater, hret⟩ := h.entry
  cases hsub'.symm.trans hsub₁
  have htlaId : tlaId = sub.tlaId := by
    rw [← hlater.tlaId] at htop ⊢
    exact hc.tlaId_of_topLevel (hkey ▸ hsub') htop
  rw [htlaId] at htla₁
  cases htla'.symm.trans htla₁
  exact lifecycle_ne_reclaimable hlater hfits hret hexpires hsubEnd htlaEnd hlife

theorem step (h : c.Tenanted a sub locker) (hc : c.Reached g) (htop : '.' ∉ sub.tlaId.chars)
    (hfits : sub.expiresAt ≤ u64Max) (htla' : c.registry.tlas.get sub.tlaId = some tla')
    (hexpires : tla.expiresAt ≤ tla'.expiresAt)
    (hsubEnd : c.now < satAdd u64Max sub.expiresAt gracePeriodNs)
    (htlaEnd : c.now < satAdd u64Max tla.expiresAt gracePeriodNs)
    (hstep : c.step l = some c') (hkeeps : KeepsTenure a.chars c l) : c'.Tenanted a sub locker := by
  have hmove := move_of_step hstep
  obtain ⟨sub', hsub', hlater, hret⟩ := h.entry
  obtain ⟨locker', hlocker', hcustody⟩ := h.account
  refine ⟨?_, ?_, ?_⟩
  · have hentry : ∃ sub'', c'.registry.subAccounts.get a.chars = some sub'' ∧ sub'.Later sub'' ∧
        sub''.retractionAt = none := by
      rcases hmove.registry with
        hsame | ⟨_, _, _, _, _, rfl, hcall, -, ho, hsame⟩ | ⟨_, _, _, _, rfl, hfl, ho, hsame⟩
      · rw [hsame]
        exact ⟨sub', hsub', .refl sub', hret⟩
      · rw [hsame]
        exact ho.tenure hsub' hret (hkeeps (by rw [hcall]; rfl))
      · rw [hsame]
        exact ho.tenure hsub' hret (h.quiet _ _ hfl)
    obtain ⟨sub'', hsub'', hlater', hret'⟩ := hentry
    exact ⟨sub'', hsub'', hlater.trans hlater', hret'⟩
  · obtain ⟨locker'', hlocker'', hregistry, hstate⟩ := hc.custody_of_move hmove hlocker' h.quiet
    exact ⟨locker'', hlocker'', hregistry.trans hcustody.1, hstate.trans hcustody.2⟩
  · intro id fl hfl hending
    rcases hmove.carried Flight.ending_carried hfl hending with
      ⟨fl₀, hfl₀, hending₀⟩ | ⟨predecessor, deposit, reserve, op, o, p, rfl, -, hcall, -, hp, rfl⟩
    · exact h.quiet _ _ hfl₀ hending₀
    · -- A chain that ends the rental needs a free key, a reclaimable entry, or an export.
      obtain ⟨-, ho⟩ := accepted_of_callOutcome hcall
      rcases ho.of_ending hp hending with hfree | ⟨tlaId, name, destination, hkey, hdest⟩ | hop
      · rw [hsub'] at hfree
        cases hfree
      · exact h.destination_ne hc htop hfits htla' hexpires hsubEnd htlaEnd hkey _ hdest
      · exact hkeeps (by rw [hcall]; rfl) hop

end Chain.Tenanted

/-- Tenure. Until the grace of the rental or of its TLA ends, whatever users and admins call
and in whatever order messages arrive, the entry of an account under a top-level TLA stays,
under the same TLA, with its start, and with an end that is not earlier, and the account stays
under its locker without a key. It takes an export by an admin or a retraction by the owner to
end this earlier. -/
theorem tenure_kept {g : Genesis} {c c' : Chain} {tr : List (Transition Chain Label)}
    (h : c.Reached g) (hrun : Run Chain.step c tr c') {a : AccountId} {sub : SubAccountEntry}
    {tla : TlaEntry} {locker : SubAccountLocker}
    (hsub : c.registry.subAccounts.get a.chars = some sub) (hret : sub.retractionAt = none)
    (htop : '.' ∉ sub.tlaId.chars) (htla : c.registry.tlas.get sub.tlaId = some tla)
    (hlocker : c.accounts a = .locker locker [])
    (hquiet : ∀ id fl, c.flights.get id = some fl → fl.ending ≠ some a.chars)
    (hkeeps : Meets (KeepsTenure a.chars) tr)
    (hsubEnd : c'.now < satAdd u64Max sub.expiresAt gracePeriodNs)
    (htlaEnd : c'.now < satAdd u64Max tla.expiresAt gracePeriodNs) :
    ∃ sub' locker', c'.registry.subAccounts.get a.chars = some sub' ∧ sub'.tlaId = sub.tlaId ∧
      sub'.rentedAt = sub.rentedAt ∧ sub.expiresAt ≤ sub'.expiresAt ∧
      c'.accounts a = .locker locker' [] ∧ locker.SameCustody locker' := by
  have hfits : sub.expiresAt ≤ u64Max := h.datesFit.2 _ _ hsub
  have htenanted' : c'.Tenanted a sub locker := by
    induction hrun with
    | nil => exact ⟨⟨sub, hsub, .refl sub, hret⟩, ⟨locker, hlocker, rfl, rfl⟩, hquiet⟩
    | snoc hrun₁ hstep ih =>
      have hnow := (Chain.move_of_step hstep).now_le
      rw [meets_snoc] at hkeeps
      obtain ⟨tla', htla', hlater⟩ := h.later_of_run hrun₁ htla
      have hsubEnd₁ := Nat.lt_of_le_of_lt hnow hsubEnd
      have htlaEnd₁ := Nat.lt_of_le_of_lt hnow htlaEnd
      exact (ih hkeeps.1 hsubEnd₁ htlaEnd₁).step (h.run hrun₁) htop hfits htla' hlater.expiresAt
        hsubEnd₁ htlaEnd₁ hstep hkeeps.2
  obtain ⟨sub', hsub', hlater, -⟩ := htenanted'.entry
  obtain ⟨locker', hlocker', hcustody⟩ := htenanted'.account
  have hexpires := hlater.expiresAt
  rw [Nat.min_eq_left hfits] at hexpires
  exact ⟨sub', locker', hsub', hlater.tlaId, hlater.rentedAt, hexpires, hlocker', hcustody⟩

namespace Sample

/-- Bob tries to reclaim the account one nanosecond before its grace ends. -/
def early : List Label :=
  [.tick (oneYearNs + gracePeriodNs - 1), call bob 0 (.reclaimFinalize tla name)]

theorem early_isSome : (exec Chain.step owned early).isSome = true := by decide +kernel

def kept : Chain := (exec Chain.step owned early).get early_isSome

end Sample

theorem tenure_kept_early :
    ∃ tr sub' locker', tr.map Transition.label = Sample.early ∧
      Run Chain.step Sample.owned tr Sample.kept ∧
      Sample.kept.registry.subAccounts.get Sample.sub.chars = some sub' ∧
      Sample.kept.accounts Sample.sub = .locker locker' [] := by
  obtain ⟨tr, hrun, hlabels⟩ := Run.of_exec (Option.some_get Sample.early_isSome).symm
  have hentry : ∃ sub ∈ Sample.owned.registry.subAccounts.get Sample.sub.chars,
      ∃ tla ∈ Sample.owned.registry.tlas.get sub.tlaId, sub.retractionAt = none ∧
        '.' ∉ sub.tlaId.chars ∧ Sample.kept.now < satAdd u64Max sub.expiresAt gracePeriodNs ∧
        Sample.kept.now < satAdd u64Max tla.expiresAt gracePeriodNs := by decide +kernel
  obtain ⟨sub, hsub, tla, htla, hret, htop, hsubEnd, htlaEnd⟩ := hentry
  have hlocker : Sample.owned.accounts Sample.sub =
    .locker ⟨Sample.registry, Sample.ownerKey, .held⟩ [] := by decide +kernel
  have hnone : Sample.owned.flights.keys = ∅ := by decide +kernel
  have hquiet : ∀ id fl, Sample.owned.flights.get id = some fl →
      fl.ending ≠ some Sample.sub.chars := by
    intro id fl hfl
    have hid := (Sample.owned.flights.mem_keys id).mpr (by rw [hfl]; rfl)
    rw [hnone] at hid
    exact absurd hid (Finset.notMem_empty _)
  have hkeeps : Meets (KeepsTenure Sample.sub.chars) tr := by
    intro t ht
    have hlabel := List.mem_map_of_mem (f := Transition.label) ht
    rw [hlabels] at hlabel
    rcases List.mem_cons.mp hlabel with hl | hl
    · rw [hl]
      trivial
    · rw [List.mem_singleton.mp hl]
      exact fun _ hop => by cases hop
  obtain ⟨sub', locker', hsub', -, -, -, hlocker', -⟩ := tenure_kept Sample.owned_reached hrun hsub
    hret htop htla hlocker hquiet hkeeps hsubEnd htlaEnd
  exact ⟨tr, sub', locker', hlabels, hrun, hsub', hlocker'⟩

end HosTla
