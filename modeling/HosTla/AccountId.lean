-- SUMMARY: Account ids, sub-account names and the key `name.tla_id` under which an account is stored.
import Mathlib.Algebra.Ring.Nat
import Mathlib.Tactic.Common

/-!
# Account ids and keys

Strings are lists of characters. An `AccountId` carries the proof that its text
follows the account-id grammar: labels of lower-case letters and digits, joined
by single separators. A key is text only. It is parsed where the code parses it.
-/

namespace HosTla

abbrev Str := List Char

/-- `str::len`: the length in bytes. -/
def byteLen (s : Str) : ℕ := (s.map Char.utf8Size).sum

def isLowerOrDigit (c : Char) : Bool :=
  ('a' ≤ c && c ≤ 'z') || ('0' ≤ c && c ≤ '9')

def isSeparator (c : Char) : Bool := c = '-' || c = '_' || c = '.'

/-- The scan of an account id. `sep` says whether the character before was a
separator, which is how the scan also starts. -/
def scanAccountId (sep : Bool) : Str → Bool
  | [] => !sep
  | c :: cs =>
    if isLowerOrDigit c then scanAccountId false cs
    else if isSeparator c then !sep && scanAccountId true cs
    else false

def isValidAccountId (s : Str) : Bool :=
  2 ≤ byteLen s && byteLen s ≤ 64 && scanAccountId true s

structure AccountId where
  chars : Str
  valid : isValidAccountId chars = true
deriving DecidableEq

namespace AccountId

theorem chars_injective {a b : AccountId} (h : a.chars = b.chars) : a = b := by
  cases a; cases b; cases h; rfl

@[simp] theorem chars_inj {a b : AccountId} : a.chars = b.chars ↔ a = b :=
  ⟨chars_injective, fun h => h ▸ rfl⟩

/-- `s.parse::<AccountId>()` -/
def parse (s : Str) : Option AccountId :=
  if h : isValidAccountId s = true then some ⟨s, h⟩ else none

theorem parse_eq_some {s : Str} {a : AccountId} : parse s = some a ↔ a.chars = s := by
  unfold parse
  split
  · rename_i h
    constructor
    · intro heq; cases heq; rfl
    · rintro rfl; rfl
  · rename_i h
    simp only [false_iff, reduceCtorEq]
    -- An account id carries its own validity, so its text parses.
    rintro rfl
    exact h a.valid

@[simp] theorem parse_chars (a : AccountId) : parse a.chars = some a := parse_eq_some.mpr rfl

end AccountId

/-! ## Names and keys -/

inductive NameInvalidReason
  | lengthOutOfBounds
  | disallowedCharacter
  | edgeSeparator
deriving DecidableEq

def isNameChar (c : Char) : Bool := isLowerOrDigit c || c = '-' || c = '_'

def isNameEdge (c : Char) : Bool := c = '-' || c = '_'

/-- The checks of `validate_name`, in the order of the source. -/
def nameInvalidReason (name : Str) : Option NameInvalidReason :=
  if name = [] ∨ byteLen name > 60 then some .lengthOutOfBounds
  else if ¬ name.all isNameChar then some .disallowedCharacter
  else if (name.head?.any isNameEdge ∨ name.getLast?.any isNameEdge) then some .edgeSeparator
  else none

def subAccountKey (tlaId : AccountId) (name : Str) : Str := name ++ '.' :: tlaId.chars

/-- `(len) as u8` of the full name. -/
def totalNameLength (tlaId : AccountId) (name : Str) : ℕ :=
  (byteLen name + 1 + byteLen tlaId.chars) % 256

theorem not_mem_dot_of_nameInvalidReason {name : Str} (h : nameInvalidReason name = none) :
    '.' ∉ name := by
  unfold nameInvalidReason at h
  split at h
  · cases h
  split at h
  · cases h
  rename_i hall
  simp only [not_not, List.all_eq_true] at hall
  intro hdot
  have := hall '.' hdot
  simp [isNameChar, isLowerOrDigit] at this

/-- A key determines its parts among the names without a dot: the name is what
stands before the first dot. -/
theorem subAccountKey_inj {tlaId tlaId' : AccountId} {name name' : Str}
    (hname : '.' ∉ name) (hname' : '.' ∉ name')
    (h : subAccountKey tlaId name = subAccountKey tlaId' name') :
    name = name' ∧ tlaId = tlaId' := by
  induction name generalizing name' with
  | nil =>
    cases name' with
    | nil => simpa [subAccountKey] using h
    -- The dot of one key would stand inside the name of the other.
    | cons c cs =>
      simp only [subAccountKey, List.nil_append, List.cons_append, List.cons.injEq] at h
      exact absurd (List.mem_cons.mpr (.inl h.1)) hname'
  | cons c cs ih =>
    cases name' with
    | nil =>
      simp only [subAccountKey, List.nil_append, List.cons_append, List.cons.injEq] at h
      exact absurd (List.mem_cons.mpr (.inl h.1.symm)) hname
    | cons c' cs' =>
      simp only [subAccountKey, List.cons_append, List.cons.injEq] at h
      simp only [List.mem_cons, not_or] at hname hname'
      obtain ⟨hcs, htla⟩ := ih hname.2 hname'.2 h.2
      exact ⟨by rw [h.1, hcs], htla⟩

/-- Under one TLA the key determines the name, dots or not. -/
theorem subAccountKey_inj_name {tlaId : AccountId} {name name' : Str}
    (h : subAccountKey tlaId name = subAccountKey tlaId name') : name = name' :=
  List.append_cancel_right h

/-- Two readings of one key, one of them with a name without a dot, agree on
the TLA exactly when the other name has no dot either. -/
theorem tlaId_eq_iff_of_subAccountKey_eq {tlaId tlaId' : AccountId} {name name' : Str}
    (hname' : '.' ∉ name') (h : subAccountKey tlaId name = subAccountKey tlaId' name') :
    tlaId' = tlaId ↔ '.' ∉ name := by
  constructor
  · rintro rfl
    rwa [subAccountKey_inj_name h]
  · intro hname
    exact (subAccountKey_inj hname hname' h).2.symm

end HosTla
