-- SUMMARY: Flat JSON objects as a compact serializer writes them, and a reader that takes every text written so back to its object.
import Mathlib.Data.Nat.Digits.Defs
import Mathlib.Tactic.Common

/-!
# JSON objects

The text of an object whose members are strings, natural numbers or `null`. A string is
escaped as a compact serializer does it: quote and backslash by a backslash, control
characters by a letter where there is one and by four hexadecimal digits otherwise.
-/

namespace Foundation.Json

inductive Value
  | null
  | text (s : String)
  | number (n : ℕ)
deriving DecidableEq

/-- The members in the order they are written. -/
abbrev Object := List (String × Value)

/-! ## Writing -/

def decimal (n : ℕ) : String := String.ofList (Nat.toDigits 10 n)

def hexDigit (n : ℕ) : Char := if n < 10 then Char.ofNat (0x30 + n) else Char.ofNat (0x57 + n)

def escapeChar (c : Char) : List Char :=
  if c = '\x22' then ['\x5c', '\x22']
  else if c = '\x5c' then ['\x5c', '\x5c']
  else if c = '\x08' then ['\x5c', 'b']
  else if c = '\x0c' then ['\x5c', 'f']
  else if c = '\x0a' then ['\x5c', 'n']
  else if c = '\x0d' then ['\x5c', 'r']
  else if c = '\x09' then ['\x5c', 't']
  else if c.toNat < 0x20 then
    ['\x5c', 'u', '0', '0', hexDigit (c.toNat / 16), hexDigit (c.toNat % 16)]
  else [c]

def writeText (s : String) : List Char := '\x22' :: s.toList.flatMap escapeChar ++ ['\x22']

def Value.write : Value → List Char
  | .null => ['n', 'u', 'l', 'l']
  | .text s => writeText s
  | .number n => (decimal n).toList

def writeMembers : Object → List Char
  | [] => []
  | [(key, value)] => writeText key ++ ':' :: value.write
  | (key, value) :: o => writeText key ++ ':' :: value.write ++ ',' :: writeMembers o

def writeObject (o : Object) : List Char := '\x7b' :: writeMembers o ++ ['\x7d']

/-! ## Reading -/

def readDecimal (s : String) : ℕ := Nat.ofDigitChars 10 s.toList 0

def hexValue (c : Char) : Option ℕ :=
  if 0x30 ≤ c.toNat ∧ c.toNat ≤ 0x39 then some (c.toNat - 0x30)
  else if 0x61 ≤ c.toNat ∧ c.toNat ≤ 0x66 then some (c.toNat - 0x57)
  else none

def shortEscape (c : Char) : Option Char :=
  if c = '\x22' then some '\x22'
  else if c = '\x5c' then some '\x5c'
  else if c = 'b' then some '\x08'
  else if c = 'f' then some '\x0c'
  else if c = 'n' then some '\x0a'
  else if c = 'r' then some '\x0d'
  else if c = 't' then some '\x09'
  else none

/-- The rest of a string after its opening quote: what it says, and what follows it. -/
def readText : List Char → Option (List Char × List Char)
  | [] => none
  | c :: rest =>
    if c = '\x22' then some ([], rest)
    else if c = '\x5c' then
      match rest with
      | 'u' :: h₁ :: h₂ :: h₃ :: h₄ :: rest' => do
        let code := (((← hexValue h₁) * 16 + (← hexValue h₂)) * 16 + (← hexValue h₃)) * 16
          + (← hexValue h₄)
        let (s, after) ← readText rest'
        return (Char.ofNat code :: s, after)
      | e :: rest' => do
        let c' ← shortEscape e
        let (s, after) ← readText rest'
        return (c' :: s, after)
      | [] => none
    else do
      let (s, after) ← readText rest
      return (c :: s, after)

def readNumber (s : List Char) : Option (ℕ × List Char) :=
  match s.takeWhile Char.isDigit with
  | [] => none
  | digits => some (readDecimal (String.ofList digits), s.dropWhile Char.isDigit)

def readValue : List Char → Option (Value × List Char)
  | '\x22' :: rest => do
    let (s, after) ← readText rest
    return (.text (String.ofList s), after)
  | 'n' :: 'u' :: 'l' :: 'l' :: rest => some (.null, rest)
  | s => do
    let (n, after) ← readNumber s
    return (.number n, after)

/-- The members up to the closing brace. The fuel bounds their number. -/
def readMembers : ℕ → List Char → Option (Object × List Char)
  | 0, _ => none
  | fuel + 1, s => do
    let '\x22' :: rest := s | none
    let (key, rest) ← readText rest
    let ':' :: rest := rest | none
    let (value, rest) ← readValue rest
    match rest with
    | ',' :: rest => do
      let (o, after) ← readMembers fuel rest
      return ((String.ofList key, value) :: o, after)
    | '\x7d' :: after => some ([(String.ofList key, value)], after)
    | _ => none

/-- What follows a text that has to stand next. -/
def readExactly (expected s : List Char) : Option (List Char) :=
  if expected.isPrefixOf s then some (s.drop expected.length) else none

def readObject : List Char → Option (Object × List Char)
  | '\x7b' :: '\x7d' :: after => some ([], after)
  | '\x7b' :: rest => readMembers rest.length rest
  | _ => none

/-! ## Members -/

def textAt (o : Object) (key : String) : Option String :=
  match o.lookup key with
  | some (.text s) => some s
  | _ => none

def numberAt (o : Object) (key : String) : Option ℕ :=
  match o.lookup key with
  | some (.number n) => some n
  | _ => none

/-! ## What was written is read back -/

@[simp] theorem readExactly_append (expected s : List Char) :
    readExactly expected (expected ++ s) = some s := by
  simp [readExactly]

@[simp] theorem readDecimal_decimal (n : ℕ) : readDecimal (decimal n) = n := by
  rw [readDecimal, decimal, String.toList_ofList, Nat.ofDigitChars_ten_toDigits]

theorem isDigit_of_mem_decimal {n : ℕ} {c : Char} (h : c ∈ (decimal n).toList) :
    c.isDigit = true := by
  rw [decimal, String.toList_ofList] at h
  exact Nat.isDigit_of_mem_toDigits (by decide) (by decide) h

theorem decimal_ne_nil (n : ℕ) : (decimal n).toList ≠ [] := by simp [decimal]

/-- A number is written with digits only, so it is no text with another character. -/
theorem decimal_ne {n : ℕ} {s : String} (h : s.toList.all Char.isDigit = false) :
    decimal n ≠ s := by
  rintro rfl
  rw [List.all_eq_true.mpr fun _ => isDigit_of_mem_decimal] at h
  cases h

theorem hexValue_hexDigit : ∀ n < 16, hexValue (hexDigit n) = some n := by decide

/-- Reading undoes the escape of one character, whatever follows it. -/
theorem readText_escapeChar (c : Char) (rest : List Char) :
    readText (escapeChar c ++ rest) = (readText rest).map fun p => (c :: p.1, p.2) := by
  unfold escapeChar
  split
  · subst c; cases h : readText rest <;> simp [readText, shortEscape, h]
  split
  · subst c; cases h : readText rest <;> simp [readText, shortEscape, h]
  split
  · subst c; cases h : readText rest <;> simp [readText, shortEscape, h]
  split
  · subst c; cases h : readText rest <;> simp [readText, shortEscape, h]
  split
  · subst c; cases h : readText rest <;> simp [readText, shortEscape, h]
  split
  · subst c; cases h : readText rest <;> simp [readText, shortEscape, h]
  split
  · subst c; cases h : readText rest <;> simp [readText, shortEscape, h]
  split
  · rename_i hcontrol
    have hzero : hexValue '0' = some 0 := by decide
    have hhigh := hexValue_hexDigit (c.toNat / 16) (by omega)
    have hlow := hexValue_hexDigit (c.toNat % 16) (by omega)
    -- The two digits are the halves of the code point.
    have hcode : Char.ofNat (c.toNat / 16 * 16 + c.toNat % 16) = c := by
      rw [Nat.div_add_mod', Char.ofNat_toNat]
    cases h : readText rest <;> simp [readText, hzero, hhigh, hlow, hcode, h]
  · rename_i hquote hbackslash _ _ _ _ _ _
    cases h : readText rest <;> simp [readText.eq_def (c :: rest), hquote, hbackslash, h]

/-- A character that is written as it is. -/
def isPlain (c : Char) : Bool := c ≠ '\x22' && c ≠ '\x5c' && 0x20 ≤ c.toNat

theorem flatMap_escapeChar {s : List Char} (h : s.all isPlain = true) :
    s.flatMap escapeChar = s := by
  induction s with
  | nil => rfl
  | cons c s ih =>
    rw [List.all_cons, Bool.and_eq_true] at h
    obtain ⟨hc, hs⟩ := h
    simp only [isPlain, Bool.and_eq_true, decide_eq_true_eq] at hc
    -- The characters with a letter of their own are control characters, too.
    have hne {x : Char} (hx : x.toNat < 0x20) : c ≠ x := by
      rintro rfl
      exact absurd hx (by omega)
    have hescape : escapeChar c = [c] := by
      unfold escapeChar
      rw [if_neg hc.1.1, if_neg hc.1.2, if_neg (hne (by decide)), if_neg (hne (by decide)),
        if_neg (hne (by decide)), if_neg (hne (by decide)), if_neg (hne (by decide)),
        if_neg (by omega)]
    rw [List.flatMap_cons, hescape, ih hs, List.singleton_append]

theorem readText_flatMap (s rest : List Char) :
    readText (s.flatMap escapeChar ++ '\x22' :: rest) = some (s, rest) := by
  induction s with
  | nil => simp [readText.eq_def]
  | cons c s ih => rw [List.flatMap_cons, List.append_assoc, readText_escapeChar, ih]; rfl

/-- What may follow a value: nothing that a number could go on with. -/
def Stops (rest : List Char) : Prop := ∀ c cs, rest = c :: cs → c.isDigit = false

theorem Stops.cons {c : Char} (h : c.isDigit = false) (rest : List Char) : Stops (c :: rest) := by
  intro c' cs heq
  cases heq
  exact h

theorem readNumber_decimal {rest : List Char} (h : Stops rest) (n : ℕ) :
    readNumber ((decimal n).toList ++ rest) = some (n, rest) := by
  have hdigits : ∀ c ∈ (decimal n).toList, c.isDigit = true := fun c => isDigit_of_mem_decimal
  have hrest : rest.takeWhile Char.isDigit = [] ∧ rest.dropWhile Char.isDigit = rest := by
    cases rest with
    | nil => exact ⟨rfl, rfl⟩
    | cons c cs => simp [h c cs rfl]
  have htake : ((decimal n).toList ++ rest).takeWhile Char.isDigit = (decimal n).toList := by
    rw [List.takeWhile_append_of_pos hdigits, hrest.1, List.append_nil]
  have hdrop : ((decimal n).toList ++ rest).dropWhile Char.isDigit = rest := by
    rw [List.dropWhile_append_of_pos hdigits, hrest.2]
  unfold readNumber
  rw [htake, hdrop]
  split
  · exact absurd ‹_› (decimal_ne_nil n)
  · rw [String.ofList_toList, readDecimal_decimal]

theorem readValue_write {rest : List Char} (h : Stops rest) (v : Value) :
    readValue (v.write ++ rest) = some (v, rest) := by
  cases v with
  | null => rfl
  | text s =>
    have hread := readText_flatMap s.toList rest
    simp [Value.write, writeText, readValue, hread]
  | number n =>
    have hread := readNumber_decimal h n
    -- A number starts with a digit, so the reader tries nothing else.
    cases hcs : (decimal n).toList with
    | nil => exact absurd hcs (decimal_ne_nil n)
    | cons c cs =>
      have hc : c.isDigit = true := isDigit_of_mem_decimal (hcs ▸ List.mem_cons_self)
      rw [hcs] at hread
      simp only [Value.write, hcs, List.cons_append] at hread ⊢
      rw [readValue.eq_def]
      split
      · rename_i heq
        rw [(List.cons.inj heq).1] at hc
        cases hc
      · rename_i heq
        rw [(List.cons.inj heq).1] at hc
        cases hc
      · simp [hread]

theorem readMembers_writeMembers {o : Object} (ho : o ≠ []) {fuel : ℕ} (hfuel : o.length ≤ fuel)
    (after : List Char) :
    readMembers fuel (writeMembers o ++ '\x7d' :: after) = some (o, after) := by
  induction o generalizing fuel with
  | nil => exact absurd rfl ho
  | cons m o ih =>
    obtain ⟨key, value⟩ := m
    obtain ⟨fuel, rfl⟩ : ∃ k, fuel = k + 1 := ⟨fuel - 1, by simp at hfuel; omega⟩
    cases o with
    | nil =>
      have hvalue := readValue_write (.cons (c := '\x7d') rfl after) value
      simp [writeMembers, writeText, readMembers, readText_flatMap, hvalue]
    | cons m' o =>
      have hread := @ih (by simp) fuel (by simpa using hfuel)
      have hvalue := readValue_write
        (.cons (c := ',') rfl (writeMembers (m' :: o) ++ '\x7d' :: after)) value
      simp [writeMembers, writeText, readMembers, readText_flatMap, hvalue, hread]

theorem length_le_writeMembers (o : Object) : o.length ≤ (writeMembers o).length := by
  induction o with
  | nil => simp
  | cons m o ih =>
    obtain ⟨key, value⟩ := m
    cases o with
    | nil => simp [writeMembers, writeText]
    | cons m' o => simp only [writeMembers, List.length_append, List.length_cons] at ih ⊢; omega

/-- Two objects are never written as the same text, and the reader finds out which it was. -/
theorem readObject_writeObject (o : Object) (after : List Char) :
    readObject (writeObject o ++ after) = some (o, after) := by
  cases o with
  | nil => rfl
  | cons m o =>
    have hlength := length_le_writeMembers (m :: o)
    have hfuel : (m :: o).length ≤ (writeMembers (m :: o) ++ '\x7d' :: after).length := by
      rw [List.length_append]
      omega
    have hread := readMembers_writeMembers (by simp) hfuel after
    -- The first member opens with a quote, so the object is not the empty one.
    have hquote : ∃ rest, writeMembers (m :: o) = '\x22' :: rest := by
      obtain ⟨key, value⟩ := m
      cases o <;> exact ⟨_, rfl⟩
    obtain ⟨rest, hrest⟩ := hquote
    simp only [writeObject, List.cons_append, List.append_assoc, List.nil_append]
    rw [hrest] at hread ⊢
    simpa [readObject] using hread

/-! ## What is written has no control characters -/

/-- A text that a log can hold on one line. -/
def Printable (s : List Char) : Prop := ∀ c ∈ s, 0x20 ≤ c.toNat

instance (s : List Char) : Decidable (Printable s) :=
  List.decidableBAll (fun c : Char => 0x20 ≤ c.toNat) s

@[simp] theorem printable_append {s s' : List Char} :
    Printable (s ++ s') ↔ Printable s ∧ Printable s' := by
  simp only [Printable, List.mem_append, or_imp, forall_and]

@[simp] theorem printable_cons {c : Char} {s : List Char} :
    Printable (c :: s) ↔ 0x20 ≤ c.toNat ∧ Printable s := by
  simp only [Printable, List.forall_mem_cons]

@[simp] theorem printable_nil : Printable [] := by simp [Printable]

theorem printable_of_isPlain {s : List Char} (h : s.all isPlain = true) : Printable s := by
  intro c hc
  have hplain := List.all_eq_true.mp h c hc
  simp only [isPlain, Bool.and_eq_true, decide_eq_true_eq] at hplain
  exact hplain.2

theorem printable_hexDigit : ∀ n < 16, 0x20 ≤ (hexDigit n).toNat := by decide

theorem printable_escapeChar (c : Char) : Printable (escapeChar c) := by
  unfold escapeChar
  split
  · decide
  split
  · decide
  split
  · decide
  split
  · decide
  split
  · decide
  split
  · decide
  split
  · decide
  split
  · rename_i hcontrol
    have hhigh := printable_hexDigit (c.toNat / 16) (by omega)
    have hlow := printable_hexDigit (c.toNat % 16) (by omega)
    simp only [printable_cons, hhigh, hlow, printable_nil, and_true]
    decide
  · rename_i hprintable
    rw [printable_cons]
    exact ⟨Nat.not_lt.mp hprintable, printable_nil⟩

theorem printable_writeText (s : String) : Printable (writeText s) := by
  have hchars : Printable (s.toList.flatMap escapeChar) := by
    intro c hc
    obtain ⟨x, -, hx⟩ := List.mem_flatMap.mp hc
    exact printable_escapeChar x c hx
  simp only [writeText, List.cons_append, printable_cons, printable_append, hchars, true_and]
  decide

theorem printable_decimal (n : ℕ) : Printable (decimal n).toList := by
  intro c hc
  have hdigit := isDigit_of_mem_decimal hc
  simp only [Char.isDigit, Bool.and_eq_true, decide_eq_true_eq] at hdigit
  have hlow : '0'.toNat ≤ c.toNat := hdigit.1
  exact Nat.le_trans (by decide) hlow

theorem Value.printable_write (v : Value) : Printable v.write := by
  cases v with
  | null => decide
  | text s => exact printable_writeText s
  | number n => exact printable_decimal n

theorem printable_writeMembers (o : Object) : Printable (writeMembers o) := by
  induction o with
  | nil => exact printable_nil
  | cons m o ih =>
    obtain ⟨key, value⟩ := m
    have hcolon : 0x20 ≤ ':'.toNat := by decide
    have hcomma : 0x20 ≤ ','.toNat := by decide
    cases o with
    | nil =>
      simp only [writeMembers, printable_append, printable_cons, printable_writeText, hcolon,
        value.printable_write, and_self]
    | cons m' o =>
      simp only [writeMembers, printable_append, printable_cons, printable_writeText, hcolon,
        value.printable_write, hcomma, ih, and_self]

theorem printable_writeObject (o : Object) : Printable (writeObject o) := by
  simp only [writeObject, List.cons_append, printable_cons, printable_append,
    printable_writeMembers, true_and]
  decide

end Foundation.Json
