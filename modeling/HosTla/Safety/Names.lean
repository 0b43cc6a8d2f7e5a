-- SUMMARY: Which of the names the registry rents out lead to an account id that can exist.
import HosTla.Chain.History
import HosTla.Registry.Accepted

/-!
# Names

`validate_name` looks at the characters of a name one at a time, and at its first and last. An
account id also has no two separators in a row, and at most 64 bytes with its TLA.
-/

namespace HosTla

open Foundation

/-! ## The two grammars -/

/-- No two neighbours that are both separators. -/
def SinglySeparated (name : Str) : Prop :=
  name.IsChain fun a b => ¬ (isNameEdge a = true ∧ isNameEdge b = true)

instance (name : Str) : Decidable (SinglySeparated name) :=
  inferInstanceAs (Decidable (name.IsChain _))

/-- What `validate_name` does not check. -/
def FitsAccountId (tlaId : AccountId) (name : Str) : Prop :=
  SinglySeparated name ∧ byteLen name + 1 + byteLen tlaId.chars ≤ 64

instance (tlaId : AccountId) (name : Str) : Decidable (FitsAccountId tlaId name) :=
  inferInstanceAs (Decidable (_ ∧ _))

/-- What `validate_name` has checked on a name it accepts. -/
theorem name_checked {name : Str} (h : nameInvalidReason name = none) :
    name ≠ [] ∧ (∀ c ∈ name, isNameChar c = true) ∧
      (∀ c ∈ name.head?, isNameEdge c = false) ∧ ∀ c ∈ name.getLast?, isNameEdge c = false := by
  unfold nameInvalidReason at h
  split at h
  · cases h
  split at h
  · cases h
  split at h
  · cases h
  rename_i hlength hchars hedges
  simp only [Option.any_eq_true, not_or, not_exists, not_and, Bool.not_eq_true] at hedges
  simp only [not_not, List.all_eq_true] at hchars
  exact ⟨fun hnil => hlength (.inl hnil), hchars, hedges.1, hedges.2⟩

/-- A character of a name is scanned as a letter or a digit, or as a separator. -/
theorem scanAccountId_cons {c : Char} (hc : isNameChar c = true) (sep : Bool) (s : Str) :
    scanAccountId sep (c :: s) = true ↔
      ¬ (sep = true ∧ isNameEdge c = true) ∧ scanAccountId (isNameEdge c) s = true := by
  by_cases hletter : isLowerOrDigit c = true
  · have hedge : isNameEdge c = false := by
      rw [← Bool.not_eq_true]
      intro hedge
      simp only [isNameEdge, Bool.or_eq_true, decide_eq_true_eq] at hedge
      rcases hedge with rfl | rfl
      · exact absurd hletter (by decide)
      · exact absurd hletter (by decide)
    simp [scanAccountId, hletter, hedge]
  · have hedge : c = '-' ∨ c = '_' := by
      simpa [isNameChar, hletter] using hc
    rcases hedge with rfl | rfl
    · simp [scanAccountId, isLowerOrDigit, isSeparator, isNameEdge]
    · simp [scanAccountId, isLowerOrDigit, isSeparator, isNameEdge]

/-- The scan of a key, after a character `p`: the name has single separators and ends in none,
and the scan of the TLA starts behind the dot. -/
theorem scanAccountId_key {name t : Str} (hname : ∀ c ∈ name, isNameChar c = true) (p : Char) :
    scanAccountId (isNameEdge p) (name ++ '.' :: t) = true ↔
      SinglySeparated (p :: name) ∧ (∀ c ∈ (p :: name).getLast?, isNameEdge c = false) ∧
        scanAccountId true t = true := by
  induction name generalizing p with
  | nil =>
    simp [scanAccountId, isLowerOrDigit, isSeparator, SinglySeparated]
  | cons c cs ih =>
    obtain ⟨hc, hcs⟩ := List.forall_mem_cons.mp hname
    rw [List.cons_append, scanAccountId_cons hc, ih hcs, SinglySeparated, SinglySeparated,
      List.isChain_cons_cons, List.getLast?_cons_cons, and_assoc]

theorem byteLen_subAccountKey (tlaId : AccountId) (name : Str) :
    byteLen (subAccountKey tlaId name) = byteLen name + 1 + byteLen tlaId.chars := by
  have hdot : Char.utf8Size '.' = 1 := by decide
  simp only [byteLen, subAccountKey, List.map_append, List.map_cons, List.sum_append,
    List.sum_cons, hdot]
  omega

/-- For a name that `validate_name` accepts the key is an account id exactly if the name fits. -/
theorem isValidAccountId_key_iff {tlaId : AccountId} {name : Str}
    (h : nameInvalidReason name = none) :
    isValidAccountId (subAccountKey tlaId name) = true ↔ FitsAccountId tlaId name := by
  obtain ⟨hne, hchars, hfirst, hlast⟩ := name_checked h
  obtain ⟨c, cs, rfl⟩ := List.exists_cons_of_ne_nil hne
  have htla := tlaId.valid
  simp only [isValidAccountId, Bool.and_eq_true, decide_eq_true_eq] at htla ⊢
  -- The scan starts as if behind a separator, which the first character is not.
  have hscan : scanAccountId true (subAccountKey tlaId (c :: cs)) = true ↔
      SinglySeparated (c :: cs) := by
    have hkey : scanAccountId true (subAccountKey tlaId (c :: cs)) = true ↔ _ :=
      scanAccountId_key hchars '-'
    have hstart : isNameEdge c = false := hfirst c rfl
    rw [hkey, SinglySeparated, List.isChain_cons_cons, List.getLast?_cons_cons]
    constructor
    · rintro ⟨⟨-, hsingle⟩, -⟩
      exact hsingle
    · intro hsingle
      exact ⟨⟨by simp [hstart], hsingle⟩, hlast, htla.2⟩
  rw [hscan, byteLen_subAccountKey]
  constructor
  · rintro ⟨⟨-, hlength⟩, hsingle⟩
    exact ⟨hsingle, hlength⟩
  · rintro ⟨hsingle, hlength⟩
    exact ⟨⟨by omega, hlength⟩, hsingle⟩

/-! ## The errors behind the two parsers -/

theorem parse_eq_none {s : Str} : AccountId.parse s = none ↔ ¬ isValidAccountId s = true := by
  unfold AccountId.parse
  split <;> simp [*]

/-- The calls that parse the key of the account they are about. -/
def Op.parses : Op → Option (AccountId × Str)
  | .reclaimSweepFt tlaId name _ | .reclaimFinalize tlaId name => some (tlaId, name)
  | .exportSubAccount tlaId name | .listSubAccount tlaId name _ => some (tlaId, name)
  | .acceptOffer tlaId name _ _ | .buySubAccount tlaId name _ => some (tlaId, name)
  | _ => none

theorem TlaRegistry.resolveAndLockSale_ne_error (r : TlaRegistry) (key : Str) (buyer : AccountId)
    (deposit : ℕ) : r.resolveAndLockSale key buyer deposit ≠ .error .invalidSubAccountId := by
  have hlisting : r.lockListing key deposit ≠ .error .invalidSubAccountId := by
    simp [lockListing, bind_eq_error, map_eq_error, rejectIf_eq_error, okOr_eq_error]
  unfold resolveAndLockSale
  split
  · split
    · simp [lockOffer, map_eq_error, rejectIf_eq_error]
    · exact hlisting
  · exact hlisting

/-- A call about a key that parses is rejected for other reasons only. -/
theorem Op.run_ne_error {env : Env} {r : TlaRegistry} {op : Op} {tlaId : AccountId} {name : Str}
    (hop : op.parses = some (tlaId, name))
    (hvalid : isValidAccountId (subAccountKey tlaId name) = true) :
    op.run env r ≠ .error .invalidSubAccountId := by
  have hparse : AccountId.parse (subAccountKey tlaId name) ≠ none := fun hnone =>
    parse_eq_none.mp hnone hvalid
  have hlock := TlaRegistry.resolveAndLockSale_ne_error
  have hsell : r.assertSellable env (subAccountKey tlaId name) tlaId ≠
      .error .invalidSubAccountId := by
    simp [TlaRegistry.assertSellable, TlaRegistry.assertNotMother, bind_eq_error, map_eq_error,
      rejectIf_eq_error, okOr_eq_error, hparse]
  cases op with
  | reclaimSweepFt | reclaimFinalize | exportSubAccount | listSubAccount | acceptOffer
  | buySubAccount =>
    cases hop
    simp [run, TlaRegistry.reclaimSweepFt, TlaRegistry.reclaimFinalize,
      TlaRegistry.exportSubAccount, TlaRegistry.listSubAccount, TlaRegistry.acceptOffer,
      TlaRegistry.buySubAccount, TlaRegistry.assertNotPaused, TlaRegistry.assertNotMother,
      TlaRegistry.assertAdmin, TlaRegistry.reclaimDestination, TlaRegistry.assertSaleIdle,
      assertOneYocto, bind_eq_error, map_eq_error, rejectIf_eq_error, okOr_eq_error, hparse,
      hlock, hsell]
  | _ => cases hop

theorem TlaManager.createSubAccount_eq_invalidName {m : TlaManager} {predecessor tlaId : AccountId}
    {name : Str} {ownerKey : PublicKey} :
    m.createSubAccount predecessor tlaId name ownerKey = .error .invalidSubAccountName ↔
      predecessor = m.registry ∧ ¬ isValidAccountId (subAccountKey tlaId name) = true := by
  rw [← parse_eq_none]
  simp [createSubAccount, bind_eq_error, map_eq_error, rejectIf_eq_error, okOr_eq_error]

/-- A rented name leads to an account id, the manager never finds it invalid, and no call of
the registry does, each exactly if the name has single separators and fits into 64 bytes
with its TLA. -/
theorem rented_name_exists_iff {r : TlaRegistry} {env : Env} {tlaId mainWallet : AccountId}
    {name : Str} {ownerKey : PublicKey} {o : Outcome}
    (h : r.rentSubAccount env tlaId name ownerKey mainWallet = .ok o) :
    (isValidAccountId (subAccountKey tlaId name) = true ↔ FitsAccountId tlaId name) ∧
      ((∀ (m : TlaManager) (predecessor : AccountId) (ownerKey : PublicKey),
          m.createSubAccount predecessor tlaId name ownerKey ≠ .error .invalidSubAccountName) ↔
        FitsAccountId tlaId name) ∧
      ((∀ (env : Env) (r : TlaRegistry) (op : Op), op.parses = some (tlaId, name) →
          op.run env r ≠ .error .invalidSubAccountId) ↔ FitsAccountId tlaId name) := by
  simp only [TlaRegistry.rentSubAccount, bind_eq_ok, validateName_eq_ok,
    TlaRegistry.assertNotPaused_eq_ok] at h
  obtain ⟨-, hpaused, -, hname, -⟩ := h
  have hvalid : isValidAccountId (subAccountKey tlaId name) = true ↔ FitsAccountId tlaId name :=
    isValidAccountId_key_iff hname
  rw [← hvalid]
  refine ⟨Iff.rfl, ⟨fun hmanager => ?_, fun hkey m predecessor ownerKey herror => ?_⟩,
    ⟨fun hcalls => ?_, fun hkey env r op hop => Op.run_ne_error hop hkey⟩⟩
  · by_contra hinvalid
    exact hmanager ⟨tlaId⟩ tlaId ownerKey
      (TlaManager.createSubAccount_eq_invalidName.mpr ⟨rfl, hinvalid⟩)
  · exact (TlaManager.createSubAccount_eq_invalidName.mp herror).2 hkey
  · by_contra hinvalid
    refine hcalls env r (.reclaimFinalize tlaId name) rfl ?_
    have hnone := parse_eq_none.mpr hinvalid
    simp [Op.run, TlaRegistry.reclaimFinalize, TlaRegistry.assertNotPaused, hpaused, hnone,
      bind_eq_error, rejectIf_eq_error, okOr_eq_error]

namespace Sample

def doubled : Str := ['a', '-', '-', 'b']

end Sample

/-- The rental of `a--b` is accepted with its deposit, and the manager refuses the name. -/
theorem rented_name_refused :
    ∃ (c : Chain) (o : Outcome) (m : TlaManager), c.Reached Sample.genesis ∧
      c.callOutcome Sample.alice (100 * oneNear) 0
        (.rentSubAccount Sample.tla Sample.doubled Sample.ownerKey Sample.alice) = some o ∧
      isValidAccountId (subAccountKey Sample.tla Sample.doubled) = false ∧
      c.managers Sample.tla = some m ∧
      m.createSubAccount c.self Sample.tla Sample.doubled Sample.ownerKey =
        .error .invalidSubAccountName := by
  have haccepted : ((Sample.after Sample.opening (by decide +kernel)).callOutcome Sample.alice
      (100 * oneNear) 0 (.rentSubAccount Sample.tla Sample.doubled Sample.ownerKey
        Sample.alice)).isSome = true := by decide +kernel
  obtain ⟨o, ho⟩ := Option.isSome_iff_exists.mp haccepted
  exact ⟨_, o, ⟨Sample.registry⟩, Sample.reached Sample.opening (by decide +kernel), ho,
    by decide, by decide +kernel, by decide +kernel⟩

/-- A name of 60 characters with separators of both kinds. It fills up an account id. -/
def Sample.longest : Str :=
  "n0-n1_n2-n3_n4-n5_n6-n7_n8-n9_n0-n1_n2-n3_n4-n5_n6-n7_n8-n99".toList

theorem rented_name_exists_iff_longest :
    (subAccountKey Sample.tla Sample.longest).length = 64 ∧
      isValidAccountId (subAccountKey Sample.tla Sample.longest) = true ∧
      ∀ m : TlaManager, m.createSubAccount m.registry Sample.tla Sample.longest Sample.ownerKey ≠
        .error .invalidSubAccountName := by
  have haccepted : (((Sample.after Sample.opening (by decide +kernel)).registry.rentSubAccount
      ((Sample.after Sample.opening (by decide +kernel)).callEnv Sample.alice (100 * oneNear) 0)
      Sample.tla Sample.longest Sample.ownerKey Sample.alice).toOption).isSome = true := by
    decide +kernel
  obtain ⟨o, ho⟩ := Option.isSome_iff_exists.mp haccepted
  obtain ⟨hvalid, hmanager, -⟩ := rented_name_exists_iff (toOption_eq_some.mp ho)
  have hfits : FitsAccountId Sample.tla Sample.longest := by decide +kernel
  exact ⟨by decide +kernel, hvalid.mpr hfits, fun m => hmanager.mpr hfits m _ _⟩

end HosTla
