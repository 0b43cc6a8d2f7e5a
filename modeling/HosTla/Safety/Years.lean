-- SUMMARY: TLAs and sub-accounts run for exactly the years that calls granted them, whoever owns them in between.
import HosTla.Foundation.Prepaid
import HosTla.Safety.Entries

/-!
# Years

An activation or a rental grants one year, and a renewal one more. Nothing else moves the
end of a TLA or of a sub-account. The terms are computed along a run from these calls alone,
and the two dates of a record are those of its term.
-/

namespace HosTla

open Foundation

/-! ## Terms -/

/-- What an accepted call makes of the term of the sub-account at a key. -/
def Op.subTerm (key : Str) (now : ℕ) (term : Option Term) : Op → Option Term
  | .rentSubAccount tlaId name _ _ =>
    if key = subAccountKey tlaId name then some (.first u64Max oneYearNs now) else term
  | .renewSubAccount tlaId name =>
    if key = subAccountKey tlaId name then term.map (Term.renew u64Max oneYearNs now) else term
  | _ => term

/-- The same for a TLA. It is registered without a year. -/
def Op.tlaTerm (tlaId : AccountId) (now : ℕ) (term : Option Term) : Op → Option Term
  | .registerTla registered _ _ _ => if tlaId = registered then some .unpaid else term
  | .activateTla activated | .activateOpenTla activated =>
    if tlaId = activated then some (.first u64Max oneYearNs now) else term
  | .renewTla renewed =>
    if tlaId = renewed then term.map (Term.renew u64Max oneYearNs now) else term
  | _ => term

/-- Only an accepted call makes something of a term. -/
def Chain.termAfter (terms : ℕ → Option Term → Op → Option Term) (c : Chain) (term : Option Term) :
    Label → Option Term
  | .call predecessor deposit reserve op =>
    (c.callOutcome predecessor deposit reserve op).elim term fun _ => terms c.now term op
  | _ => term

/-- The term that the calls of a run have granted. -/
def termGranted (terms : ℕ → Option Term → Op → Option Term)
    (tr : List (Transition Chain Label)) : Option Term :=
  tr.foldl (fun term t => t.before.termAfter terms term t.label) none

theorem termGranted_snoc (terms : ℕ → Option Term → Op → Option Term)
    (tr : List (Transition Chain Label)) (t : Transition Chain Label) :
    termGranted terms (tr ++ [t]) = t.before.termAfter terms (termGranted terms tr) t.label := by
  unfold termGranted
  rw [List.foldl_append]
  rfl

/-- The two dates are those of the term, which was paid for. -/
def RunsFor (since until_ now : ℕ) (term : Option Term) : Prop :=
  ∃ t, term = some t ∧ t.start = since ∧ t.ends = until_ ∧ t.Covered u64Max oneYearNs now

namespace RunsFor

variable {since until_ now : ℕ} {term : Option Term}

theorem unpaid : RunsFor 0 0 now (some .unpaid) :=
  ⟨.unpaid, rfl, rfl, rfl, Term.covered_unpaid⟩

theorem first :
    RunsFor now (satAdd u64Max now oneYearNs) now (some (.first u64Max oneYearNs now)) :=
  ⟨.first u64Max oneYearNs now, rfl, rfl, rfl, Term.covered_first⟩

theorem renew (h : RunsFor since until_ now term) :
    RunsFor since (satAdd u64Max (max now until_) oneYearNs) now
      (term.map (Term.renew u64Max oneYearNs now)) := by
  obtain ⟨t, rfl, rfl, rfl, hcovered⟩ := h
  exact ⟨t.renew u64Max oneYearNs now, rfl, Term.start_renew, Term.ends_renew, hcovered.renew⟩

theorem later (h : RunsFor since until_ now term) {now' : ℕ} (hle : now ≤ now') :
    RunsFor since until_ now' term := by
  obtain ⟨t, hterm, hstart, hends, hcovered⟩ := h
  exact ⟨t, hterm, hstart, hends, hcovered.later hle⟩

end RunsFor

/-! ## One call -/

section

variable {env : Env} {r : TlaRegistry} {op : Op} {o : Outcome}

theorem Accepted.subTerm (h : Accepted env r op o) {key : Str} {term : Option Term}
    (hruns : ∀ sub, r.subAccounts.get key = some sub →
      RunsFor sub.rentedAt sub.expiresAt env.blockTimestamp term) :
    ∀ sub, o.registry.subAccounts.get key = some sub →
      RunsFor sub.rentedAt sub.expiresAt env.blockTimestamp
        (op.subTerm key env.blockTimestamp term) := by
  -- An update of the entry at `k` that keeps the two dates, seen from `key`.
  have hamend {k : Str} {sub sub' : SubAccountEntry} (hsub : r.subAccounts.get k = some sub)
      (hrented : sub'.rentedAt = sub.rentedAt) (hexpires : sub'.expiresAt = sub.expiresAt) :
      ∀ sub'', (r.subAccounts.insert k sub').get key = some sub'' →
        RunsFor sub''.rentedAt sub''.expiresAt env.blockTimestamp term := by
    intro sub'' hget
    rcases LookupMap.get_of_get_insert hget with ⟨rfl, rfl⟩ | ⟨-, hget⟩
    · rw [hrented, hexpires]
      exact hruns sub hsub
    · exact hruns sub'' hget
  cases h with
  | scheduleRetraction _ _ _ _ hsub => exact hamend hsub rfl rfl
  | cancelRetraction _ _ hsub => exact hamend hsub rfl rfl
  | setMainWallet _ _ _ hsub => exact hamend hsub rfl rfl
  | renewSubAccount _ hsub =>
    intro sub' hget
    rcases LookupMap.get_of_get_insert hget with ⟨rfl, rfl⟩ | ⟨hne, hget⟩
    · rw [Op.subTerm, if_pos rfl]
      exact (hruns _ hsub).renew
    · rw [Op.subTerm, if_neg hne]
      exact hruns sub' hget
  | rentSubAccount =>
    intro sub' hget
    rcases LookupMap.get_of_get_insert hget with ⟨rfl, rfl⟩ | ⟨hne, hget⟩
    · rw [Op.subTerm, if_pos rfl]
      exact .first
    · rw [Op.subTerm, if_neg hne]
      exact hruns sub' hget
  | configured hop => cases op <;> cases hop <;> exact hruns
  | resale hop => cases op <;> cases hop <;> exact hruns
  | _ => exact hruns

theorem Accepted.tlaTerm (h : Accepted env r op o) {tlaId : AccountId} {term : Option Term}
    (hruns : ∀ tla, r.tlas.get tlaId = some tla →
      RunsFor tla.activatedAt tla.expiresAt env.blockTimestamp term) :
    ∀ tla, o.registry.tlas.get tlaId = some tla →
      RunsFor tla.activatedAt tla.expiresAt env.blockTimestamp
        (op.tlaTerm tlaId env.blockTimestamp term) := by
  -- An update of the TLA `k` that keeps the two dates, seen from `tlaId`.
  have hamend {k : AccountId} {tla tla' : TlaEntry} (htla : r.tlas.get k = some tla)
      (hactivated : tla'.activatedAt = tla.activatedAt)
      (hexpires : tla'.expiresAt = tla.expiresAt) :
      ∀ tla'', (r.tlas.insert k tla').get tlaId = some tla'' →
        RunsFor tla''.activatedAt tla''.expiresAt env.blockTimestamp term := by
    intro tla'' hget
    rcases LookupMap.get_of_get_insert hget with ⟨rfl, rfl⟩ | ⟨-, hget⟩
    · rw [hactivated, hexpires]
      exact hruns tla htla
    · exact hruns tla'' hget
  cases h with
  | suspendTla _ htla => exact hamend htla rfl rfl
  | unsuspendTla _ htla => exact hamend htla rfl rfl
  | registerTla =>
    intro tla' hget
    rcases LookupMap.get_of_get_insert hget with ⟨rfl, rfl⟩ | ⟨hne, hget⟩
    · rw [Op.tlaTerm, if_pos rfl]
      exact .unpaid
    · rw [Op.tlaTerm, if_neg hne]
      exact hruns tla' hget
  | activateOpenTla | activateTla =>
    intro tla' hget
    rcases LookupMap.get_of_get_insert hget with ⟨rfl, rfl⟩ | ⟨hne, hget⟩
    · rw [Op.tlaTerm, if_pos rfl]
      exact .first
    · rw [Op.tlaTerm, if_neg hne]
      exact hruns tla' hget
  | renewTla _ _ htla =>
    intro tla' hget
    rcases LookupMap.get_of_get_insert hget with ⟨rfl, rfl⟩ | ⟨hne, hget⟩
    · rw [Op.tlaTerm, if_pos rfl]
      exact (hruns _ htla).renew
    · rw [Op.tlaTerm, if_neg hne]
      exact hruns tla' hget
  | configured hop => cases op <;> cases hop <;> exact hruns
  | resale hop => cases op <;> cases hop <;> exact hruns
  | _ => exact hruns

end

/-! ## Runs -/

namespace Chain

variable {c c' : Chain} {l : Label}

theorem Answered.now {id : ℕ} {fl : Flight} (h : c.Answered id fl c') : c'.now = c.now := by
  cases h <;> rfl

theorem Move.now_le (hmove : c.Move l c') : c.now ≤ c'.now := by
  cases hmove with
  | tick hnow => exact hnow
  | advanced _ _ _ hadvance => exact Nat.le_of_eq (advanced_of_advance hadvance).now.symm
  | answered _ hanswer => exact Nat.le_of_eq hanswer.now.symm
  | _ => exact Nat.le_refl _

/-- A property of one record and its term that the clock keeps is kept along every run, if
every accepted call keeps it with what it makes of the term, and every callback with the term
as it is. -/
theorem terms_of_run {g : Genesis} {terms : ℕ → Option Term → Op → Option Term}
    {I : TlaRegistry → ℕ → Option Term → Prop} (hinit : I (.new g.admin) g.now none)
    (hlater : ∀ r now now' term, I r now term → now ≤ now' → I r now' term)
    (haccepted : ∀ env r op o term, I r env.blockTimestamp term → Accepted env r op o →
      I o.registry env.blockTimestamp (terms env.blockTimestamp term op))
    (hsettled : ∀ r fl o now term, I r now term → Settled r fl o → I o.registry now term)
    {tr : List (Transition Chain Label)} (hrun : Run Chain.step (.init g) tr c) :
    I c.registry c.now (termGranted terms tr) := by
  induction hrun with
  | nil => exact hinit
  | @snoc tr c c' l _ hstep ih =>
    have hmove := move_of_step hstep
    rw [termGranted_snoc]
    cases hmove with
    | rejected hcall =>
      simp only [termAfter, hcall]
      exact ih
    | accepted hcall _ _ ho =>
      simp only [termAfter, hcall]
      exact haccepted (c.callEnv _ _ _) _ _ _ _ ih ho
    | settled _ _ ho => exact hsettled _ _ _ _ _ ih ho
    | advanced _ _ _ hadvance =>
      have hsame := advanced_of_advance hadvance
      rw [hsame.registry, hsame.now]
      exact ih
    | answered _ hanswer =>
      rw [hanswer.registry, hanswer.now]
      exact ih
    | tick hnow => exact hlater _ _ _ _ ih hnow
    | _ => exact ih

end Chain

/-- Whatever owners, buyers, admins and callbacks do in between: the two dates of a sub-account
are exactly those that its rental and its renewals give, one after the other, and the two dates
of a TLA those that its activation and its renewals give. In both the years that were paid are
all there, and what is left was paid for: early renewals lose nothing, late ones start when
they are made, and nobody gets time for nothing. -/
theorem years_exact {g : Genesis} {c : Chain} {tr : List (Transition Chain Label)}
    (hrun : Run Chain.step (.init g) tr c) :
    (∀ key sub, c.registry.subAccounts.get key = some sub →
      RunsFor sub.rentedAt sub.expiresAt c.now (termGranted (Op.subTerm key) tr)) ∧
      ∀ tlaId tla, c.registry.tlas.get tlaId = some tla →
        RunsFor tla.activatedAt tla.expiresAt c.now (termGranted (Op.tlaTerm tlaId) tr) := by
  refine ⟨fun key => ?_, fun tlaId => ?_⟩
  · let I (r : TlaRegistry) (now : ℕ) (term : Option Term) : Prop :=
      ∀ sub, r.subAccounts.get key = some sub → RunsFor sub.rentedAt sub.expiresAt now term
    refine Chain.terms_of_run (I := I) ?_ ?_ (fun _ _ _ _ _ hI ho => ho.subTerm hI) ?_ hrun
    · intro sub hsub
      cases hsub
    · intro r now now' term hI hle sub hsub
      exact (hI sub hsub).later hle
    · intro r fl o now term hI ho sub hsub
      have hentry := ho.entry key
      rw [hsub] at hentry
      generalize hnew : some sub = entry at hentry
      cases hentry with
      | kept => exact hI sub hnew.symm
      | sold _ hold =>
        have hruns := hI _ hold
        cases hnew
        exact hruns
      | removed => cases hnew
  · let I (r : TlaRegistry) (now : ℕ) (term : Option Term) : Prop :=
      ∀ tla, r.tlas.get tlaId = some tla → RunsFor tla.activatedAt tla.expiresAt now term
    refine Chain.terms_of_run (I := I) ?_ ?_ (fun _ _ _ _ _ hI ho => ho.tlaTerm hI) ?_ hrun
    · intro tla htla
      cases htla
    · intro r now now' term hI hle tla htla
      exact (hI tla htla).later hle
    · intro r fl o now term hI ho tla htla
      rw [ho.tlas] at htla
      exact hI tla htla

/-- Alice rents `n.hos`, which is created, and renews it at once. -/
theorem years_exact_renewed :
    ∃ tr c sub, Run Chain.step (.init Sample.genesis) tr c ∧
      c.registry.subAccounts.get Sample.sub.chars = some sub ∧
      RunsFor sub.rentedAt sub.expiresAt c.now (termGranted (Op.subTerm Sample.sub.chars) tr) := by
  have hrenews : ((exec Chain.step (.init Sample.genesis) (Sample.rented ++
      [Sample.call Sample.alice (100 * oneNear) (.renewSubAccount Sample.tla Sample.name)])).bind
        fun c => c.registry.subAccounts.get Sample.sub.chars).isSome = true := by decide +kernel
  obtain ⟨sub, hsub⟩ := Option.isSome_iff_exists.mp hrenews
  obtain ⟨c, hexec, hsub⟩ := Option.bind_eq_some_iff.mp hsub
  obtain ⟨tr, hrun, -⟩ := Run.of_exec hexec
  exact ⟨tr, c, sub, hrun, hsub, (years_exact hrun).1 _ sub hsub⟩

end HosTla
