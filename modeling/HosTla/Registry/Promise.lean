-- SUMMARY: Promise results, the decoding of balance answers, and the promises the registry creates.
import HosTla.Registry.Types

/-!
# Promises

What a registry method returns to the runtime is a cross-contract call together
with the callback it schedules. Each constructor of `Promise` is one such chain
of the source, with the arguments of the call and of the callback.
-/

namespace HosTla

open Foundation

def ftBalanceMaxLen : ℕ := 256

inductive PromiseResult
  | successful (bytes : List UInt8)
  | failed
deriving DecidableEq

inductive PromiseError
  | failed
  | tooLong (length : ℕ)

/-- `env::promise_result_checked` -/
def PromiseResult.checked (result : PromiseResult) (maxLen : ℕ) :
    Except PromiseError (List UInt8) :=
  match result with
  | .failed => .error .failed
  | .successful bytes =>
    if maxLen < bytes.length then .error (.tooLong bytes.length) else .ok bytes

/-! ## Decoding `U128`

A `U128` travels as a JSON string of decimal digits. Only the code points of the
string matter: whatever is no digit and no leading plus fails the integer parser. -/

def isJsonSpace (b : UInt8) : Bool := b = 0x20 || b = 0x09 || b = 0x0a || b = 0x0d

def hexDigit (b : UInt8) : Option ℕ :=
  if 0x30 ≤ b ∧ b ≤ 0x39 then some (b.toNat - 0x30)
  else if 0x41 ≤ b ∧ b ≤ 0x46 then some (b.toNat - 0x37)
  else if 0x61 ≤ b ∧ b ≤ 0x66 then some (b.toNat - 0x57)
  else none

/-- The code point of a one-letter escape. -/
def shortEscape (b : UInt8) : Option ℕ :=
  if b = 0x22 ∨ b = 0x5c ∨ b = 0x2f then some b.toNat
  else if b = 0x62 then some 0x08
  else if b = 0x66 then some 0x0c
  else if b = 0x6e then some 0x0a
  else if b = 0x72 then some 0x0d
  else if b = 0x74 then some 0x09
  else none

/-- The rest of a JSON string after its opening quote: the code points up to the
closing quote, and the bytes after it. -/
def jsonStringTail : List UInt8 → Option (List ℕ × List UInt8)
  | [] => none
  | b :: rest =>
    if b = 0x22 then some ([], rest)
    else if b = 0x5c then
      match rest with
      | [] => none
      | e :: rest' =>
        if e = 0x75 then
          match rest' with
          | h₁ :: h₂ :: h₃ :: h₄ :: rest'' => do
            let code := (((← hexDigit h₁) * 16 + (← hexDigit h₂)) * 16 + (← hexDigit h₃)) * 16
              + (← hexDigit h₄)
            let (codes, after) ← jsonStringTail rest''
            return (code :: codes, after)
          | _ => none
        else do
          let code ← shortEscape e
          let (codes, after) ← jsonStringTail rest'
          return (code :: codes, after)
    else if b < 0x20 then none
    else do
      let (codes, after) ← jsonStringTail rest
      return (b.toNat :: codes, after)

def decimalDigit (code : ℕ) : Option ℕ :=
  if 0x30 ≤ code ∧ code ≤ 0x39 then some (code - 0x30) else none

/-- `str::parse::<u128>` on code points. -/
def parseU128 (codes : List ℕ) : Option ℕ :=
  let digits := if codes.head? = some 0x2b then codes.tail else codes
  if digits = [] then none
  else
    digits.foldlM (fun acc code => do
      let d ← decimalDigit code
      if acc * 10 + d ≤ u128Max then some (acc * 10 + d) else none) 0

/-- `serde_json::from_slice::<U128>` -/
def decodeU128 (bytes : List UInt8) : Option ℕ :=
  match bytes.dropWhile isJsonSpace with
  | [] => none
  | b :: rest =>
    if b = 0x22 then do
      let (codes, after) ← jsonStringTail rest
      if after.all isJsonSpace then parseU128 codes else none
    else none

/-- `serde_json::to_vec` of a `U128`. -/
def encodeU128 (n : ℕ) : List UInt8 :=
  0x22 :: ((Nat.toDigits 10 n).map fun c => UInt8.ofNat c.toNat) ++ [0x22]

/-! ## The round trip of `U128` -/

theorem toNat_of_isDigit {c : Char} (hc : c.isDigit = true) :
    0x30 ≤ c.toNat ∧ c.toNat ≤ 0x39 := by
  simpa [Char.isDigit, UInt32.le_iff_toNat_le] using hc

theorem toNat_digitByte {c : Char} (hc : c.isDigit = true) :
    (UInt8.ofNat c.toNat).toNat = c.toNat := by
  have := toNat_of_isDigit hc
  rw [UInt8.toNat_ofNat']
  omega

theorem decimalDigit_toNat {c : Char} (hc : c.isDigit = true) :
    decimalDigit c.toNat = some (c.toNat - '0'.toNat) := if_pos (toNat_of_isDigit hc)

/-- Digits up to the closing quote stand for themselves. -/
theorem jsonStringTail_digits {cs : List Char} (h : ∀ c ∈ cs, c.isDigit = true) :
    jsonStringTail (cs.map (fun c => UInt8.ofNat c.toNat) ++ [0x22]) =
      some (cs.map Char.toNat, []) := by
  induction cs with
  | nil => rfl
  | cons c cs ih =>
    have hc := toNat_of_isDigit (h c List.mem_cons_self)
    have hbyte := toNat_digitByte (h c List.mem_cons_self)
    have hquote : UInt8.ofNat c.toNat ≠ 0x22 := by
      intro heq
      rw [heq] at hbyte
      have : c.toNat = 0x22 := hbyte.symm
      omega
    have hescape : UInt8.ofNat c.toNat ≠ 0x5c := by
      intro heq
      rw [heq] at hbyte
      have : c.toNat = 0x5c := hbyte.symm
      omega
    have hcontrol : ¬ UInt8.ofNat c.toNat < 0x20 := by
      rw [UInt8.lt_iff_toNat_lt, hbyte]
      have : (0x20 : UInt8).toNat = 0x20 := rfl
      omega
    rw [List.map_cons, List.cons_append, jsonStringTail.eq_def]
    simp only [hquote, hescape, hcontrol, if_false]
    rw [ih fun c' hc' => h c' (List.mem_cons_of_mem c hc')]
    simp [hbyte]

/-- The accumulator of the parser only grows. -/
theorem le_ofDigitChars (cs : List Char) (acc : ℕ) : acc ≤ Nat.ofDigitChars 10 cs acc := by
  induction cs generalizing acc with
  | nil => simp
  | cons c cs ih =>
    rw [Nat.ofDigitChars_cons]
    exact Nat.le_trans (by omega) (ih _)

/-- The parser reads a number, or it stops at the first value that is too large. -/
theorem foldlM_digits {cs : List Char} (h : ∀ c ∈ cs, c.isDigit = true) {acc m : ℕ}
    (hacc : acc ≤ u128Max) :
    (cs.map Char.toNat).foldlM (fun acc code => do
      let d ← decimalDigit code
      if acc * 10 + d ≤ u128Max then some (acc * 10 + d) else none) acc = some m ↔
      Nat.ofDigitChars 10 cs acc = m ∧ m ≤ u128Max := by
  induction cs generalizing acc with
  | nil =>
    simp only [List.map_nil, List.foldlM_nil, Nat.ofDigitChars_nil, Option.pure_def,
      Option.some.injEq]
    constructor
    · rintro rfl
      exact ⟨rfl, hacc⟩
    · exact fun h => h.1
  | cons c cs ih =>
    rw [List.map_cons, List.foldlM_cons, decimalDigit_toNat (h c List.mem_cons_self),
      Nat.ofDigitChars_cons, Nat.mul_comm 10 acc]
    simp only [Option.bind_eq_bind, Option.bind_some]
    split
    · rename_i hle
      exact ih (fun c' hc' => h c' (List.mem_cons_of_mem c hc')) hle
    · rename_i hlt
      have hgrow := le_ofDigitChars cs (acc * 10 + (c.toNat - '0'.toNat))
      constructor
      · intro hnone
        cases hnone
      · rintro ⟨rfl, hm⟩
        omega

/-- What a token says is what is read, where it fits the width. -/
theorem decodeU128_encodeU128 {n m : ℕ} :
    decodeU128 (encodeU128 n) = some m ↔ n = m ∧ m ≤ u128Max := by
  have hdigits : ∀ c ∈ Nat.toDigits 10 n, c.isDigit = true := fun c hc =>
    Nat.isDigit_of_mem_toDigits (by decide) (by decide) hc
  have hplus : ((Nat.toDigits 10 n).map Char.toNat).head? ≠ some 0x2b := by
    cases hcs : Nat.toDigits 10 n with
    | nil => simp
    | cons c cs =>
      have hc := toNat_of_isDigit (hdigits c (by rw [hcs]; exact List.mem_cons_self))
      simp only [List.map_cons, List.head?_cons, ne_eq, Option.some.injEq]
      omega
  have hne : (Nat.toDigits 10 n).map Char.toNat ≠ [] := by
    simp
  have hdecode : decodeU128 (encodeU128 n) = parseU128 ((Nat.toDigits 10 n).map Char.toNat) := by
    simp [decodeU128, encodeU128, isJsonSpace, jsonStringTail_digits hdigits]
  rw [hdecode, parseU128]
  simp only [if_neg hplus, if_neg hne]
  rw [foldlM_digits hdigits (Nat.zero_le _), Nat.ofDigitChars_ten_toDigits]

/-- Why a balance check stops a reclaim or a sale. -/
inductive BlockReason
  | resultCountMismatch
  | balance (amount : ℕ)
  | balanceUnverifiable
  | balanceQueryFailed
  | balanceQueryUnverifiable
  | invalidSubAccountId
deriving DecidableEq

/-! ## The chains of the registry -/

/-- The arguments of `create_sub_account` and `on_sub_account_created`. -/
structure PendingRent where
  tlaId : AccountId
  name : Str
  ownerKey : PublicKey
  creationDeposit : ℕ
  payer : AccountId
  rent : ℕ
  attached : ℕ
deriving DecidableEq

/-- The arguments a reclaim carries from `reclaim_finalize` to its callbacks. -/
structure PendingReclaim where
  tlaId : AccountId
  name : Str
  destination : AccountId
deriving DecidableEq

structure PendingBuy where
  tlaId : AccountId
  name : Str
  buyer : AccountId
  newOwnerKey : PublicKey
  price : ℕ
  deposit : ℕ
deriving DecidableEq

def PendingRent.key (p : PendingRent) : Str := subAccountKey p.tlaId p.name
def PendingReclaim.key (p : PendingReclaim) : Str := subAccountKey p.tlaId p.name
def PendingBuy.key (p : PendingBuy) : Str := subAccountKey p.tlaId p.name

inductive Promise
  /-- `create_sub_account` on the manager, then `on_sub_account_created`. -/
  | createSubAccount (rent : PendingRent)
  /-- A transfer of a refund, then `on_claim_refund_settled`. -/
  | transferRefund (caller : AccountId) (amount : ℕ)
  /-- `sweep_ft` on the locker, without a callback. -/
  | sweepFt (subAccount ft destination : AccountId)
  /-- `ft_balance_of` on every token of the list, then `on_balances_checked`. -/
  | checkBalances (subAccount : AccountId) (reclaim : PendingReclaim)
      (allowlist : List AccountId)
  /-- `finalize_delete` on the locker, then `on_reclaim_finalized`. -/
  | finalizeDelete (subAccount : AccountId) (reclaim : PendingReclaim)
  /-- `export` on the locker, then `on_export_settled`. -/
  | exportSubAccount (subAccount tlaId : AccountId) (name : Str)
  /-- `ft_balance_of` on every token of the list, then `on_buy_balances_checked`. -/
  | checkBuyBalances (subAccount : AccountId) (settlement : PendingBuy)
      (allowlist : List AccountId)
  /-- `transfer` on the locker, then `on_sub_account_sold`. -/
  | settleTransfer (subAccount : AccountId) (settlement : PendingBuy)
  /-- `unlock` on a resale locker. -/
  | resaleUnlock (account : AccountId) (buyerKey : PublicKey)
  /-- `abort` on a resale locker. -/
  | resaleAbort (account : AccountId)

/-- The deposit the registry attaches to the call. -/
def Promise.attachedDeposit : Promise → ℕ
  | .createSubAccount rent => rent.creationDeposit
  | .transferRefund _ amount => amount
  | _ => 0

end HosTla
