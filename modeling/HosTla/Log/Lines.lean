-- SUMMARY: A reader of log lines, and the proof that it takes the line of every event back to the event.
import HosTla.Registry.Events

/-!
# Log lines

What an indexer does with the text of a line: it takes the line apart, reads the name and
the members of the data, and finds the event again with all its values.
-/

namespace HosTla

open Foundation Foundation.Json

/-! ## Texts of enumerations -/

def TlaType.ofText (s : String) : Option TlaType :=
  if s = "business" then some .business
  else if s = "open" then some .open_
  else none

def PremiumCategory.ofText (s : String) : Option PremiumCategory :=
  if s = "legendary" then some .legendary
  else if s = "premium" then some .premium
  else if s = "standard" then some .standard
  else if s = "community" then some .community
  else none

def MotherSource.ofText (s : String) : Option MotherSource :=
  if s = "default" then some .default_
  else if s = "explicit" then some .explicit
  else none

def RefundReason.ofText (s : String) : Option RefundReason :=
  if s = "transfer_failed" then some .transferFailed
  else if s = "sub-account creation failed" then some .creationFailed
  else none

/-- What is none of the fixed texts is an amount. -/
def BlockReason.ofText (s : String) : BlockReason :=
  if s = "result_count_mismatch" then .resultCountMismatch
  else if s = "balance_unverifiable" then .balanceUnverifiable
  else if s = "balance_query_failed" then .balanceQueryFailed
  else if s = "balance_query_unverifiable" then .balanceQueryUnverifiable
  else if s = "invalid_sub_account_id" then .invalidSubAccountId
  else .balance (readDecimal s)

def capOfText (s : String) : Option UInt32 :=
  if s = "default" then none else some (UInt32.ofNat (readDecimal s))

@[simp] theorem TlaType.ofText_text (t : TlaType) : ofText t.text = some t := by
  cases t <;> simp [ofText, text]

@[simp] theorem PremiumCategory.ofText_text (c : PremiumCategory) : ofText c.text = some c := by
  cases c <;> simp [ofText, text]

@[simp] theorem MotherSource.ofText_text (s : MotherSource) : ofText s.text = some s := by
  cases s <;> simp [ofText, text]

@[simp] theorem RefundReason.ofText_text (r : RefundReason) : ofText r.text = some r := by
  cases r <;> simp [ofText, text]

@[simp] theorem BlockReason.ofText_text (r : BlockReason) : ofText r.text = r := by
  cases r with
  | balance amount =>
    unfold ofText text
    rw [if_neg (decimal_ne (by decide)), if_neg (decimal_ne (by decide)),
      if_neg (decimal_ne (by decide)), if_neg (decimal_ne (by decide)),
      if_neg (decimal_ne (by decide)), readDecimal_decimal]
  | _ => simp [ofText, text]

@[simp] theorem capOfText_capText (cap : Option UInt32) : capOfText (capText cap) = cap := by
  cases cap with
  | none => simp [capOfText, capText]
  | some value =>
    have hne : decimal value.toNat ≠ "default" := decimal_ne (by decide)
    simp [capOfText, capText, hne]

/-! ## Reading the members -/

def AccountId.ofText (s : String) : Option AccountId := parse s.toList

@[simp] theorem AccountId.ofText_text (a : AccountId) : ofText a.text = some a := by
  rw [ofText, text, String.toList_ofList, parse_chars]

def accountAt (o : Object) (key : String) : Option AccountId :=
  (textAt o key).bind AccountId.ofText

/-- A full name, which is no account id before it is parsed. -/
def nameAt (o : Object) (key : String) : Option Str := (textAt o key).map String.toList

def amountAt (o : Object) (key : String) : Option ℕ := (textAt o key).map readDecimal

/-- A licensee, or `null`. -/
def licenseeAt (o : Object) : Option (Option AccountId) :=
  match o.lookup "licensee" with
  | some .null => some none
  | some (.text s) => (AccountId.ofText s).map some
  | _ => none

/-- A token, or an empty text. -/
def tokenAt (o : Object) : Option (Option AccountId) := do
  let s ← textAt o "token"
  if s = "" then return none else return some (← AccountId.ofText s)

/-- The event with this name and these members. -/
def Event.ofFields (name : String) (o : Object) : Option Event :=
  if name = "contract_paused" then do
    return .contractPaused (← accountAt o "by")
  else if name = "contract_unpaused" then do
    return .contractUnpaused (← accountAt o "by")
  else if name = "refund_pending" then do
    return .refundPending (← accountAt o "account") (← amountAt o "amount_yocto")
      (← (textAt o "reason").bind RefundReason.ofText)
  else if name = "tla_registered" then do
    return .tlaRegistered (← accountAt o "tla_id") (← (textAt o "tla_type").bind TlaType.ofText)
      (← (textAt o "premium_category").bind PremiumCategory.ofText) (← licenseeAt o)
  else if name = "tla_suspended" then do
    return .tlaSuspended (← accountAt o "tla_id") (← accountAt o "by")
  else if name = "tla_unsuspended" then do
    return .tlaUnsuspended (← accountAt o "tla_id") (← accountAt o "by")
  else if name = "admin_added" then do
    return .adminAdded (← accountAt o "account") (← accountAt o "by")
  else if name = "admin_removed" then do
    return .adminRemoved (← accountAt o "account") (← accountAt o "by")
  else if name = "fee_config_updated" then do
    return .feeConfigUpdated (← accountAt o "by")
  else if name = "withdrawal_queued" then do
    return .withdrawalQueued (← amountAt o "amount_yocto") (← accountAt o "recipient")
  else if name = "ft_allowlist_added" then do
    return .ftAllowlistAdded (← accountAt o "token") (← accountAt o "by")
  else if name = "ft_allowlist_removed" then do
    return .ftAllowlistRemoved (← accountAt o "token") (← accountAt o "by")
  else if name = "nft_allowlist_added" then do
    return .nftAllowlistAdded (← accountAt o "token") (← accountAt o "by")
  else if name = "nft_allowlist_removed" then do
    return .nftAllowlistRemoved (← accountAt o "token") (← accountAt o "by")
  else if name = "tla_activated" then do
    return .tlaActivated (← accountAt o "tla_id") (← numberAt o "expires_at")
      (← amountAt o "paid_yocto")
  else if name = "tla_renewed" then do
    return .tlaRenewed (← accountAt o "entity") (← numberAt o "new_expires_at")
      (← amountAt o "paid_yocto")
  else if name = "sub_account_rented" then do
    return .subAccountRented (← nameAt o "full_name") (← accountAt o "tla_id")
      (← accountAt o "owner") (← amountAt o "rent_yocto") (← numberAt o "expires_at")
  else if name = "sub_account_renewed" then do
    return .subAccountRenewed (← nameAt o "entity") (← numberAt o "new_expires_at")
      (← amountAt o "paid_yocto")
  else if name = "main_wallet_updated" then do
    return .mainWalletUpdated (← nameAt o "full_name") (← accountAt o "new_wallet")
  else if name = "reclaim_finalize_blocked" then do
    return .reclaimFinalizeBlocked (← nameAt o "full_name") (← accountAt o "token")
      (← (textAt o "reason").map BlockReason.ofText)
  else if name = "sub_account_reclaimed" then do
    return .subAccountReclaimed (← nameAt o "full_name") (← accountAt o "tla_id")
      (← accountAt o "swept_to")
  else if name = "sub_account_exported" then do
    return .subAccountExported (← nameAt o "full_name") (← accountAt o "tla_id")
  else if name = "mother_set" then do
    return .motherSet (← accountAt o "user") (← accountAt o "mother")
      (← (textAt o "source").bind MotherSource.ofText)
  else if name = "mother_cleared" then do
    return .motherCleared (← accountAt o "user") (← accountAt o "previous_mother")
      (← accountAt o "by")
  else if name = "sub_account_retraction_scheduled" then do
    return .subAccountRetractionScheduled (← nameAt o "full_name") (← numberAt o "retraction_at")
      (← accountAt o "by")
  else if name = "sub_account_retraction_canceled" then do
    return .subAccountRetractionCanceled (← nameAt o "full_name") (← accountAt o "by")
  else if name = "business_sub_cap_set" then do
    return .businessSubCapSet (← accountAt o "tla_id") (← (textAt o "cap").map capOfText)
      (← accountAt o "by")
  else if name = "resale_unlock_requested" then do
    return .resaleUnlockRequested (← accountAt o "account") (← accountAt o "by")
  else if name = "resale_abort_requested" then do
    return .resaleAbortRequested (← accountAt o "account") (← accountAt o "by")
  else if name = "sub_account_listed" then do
    return .subAccountListed (← nameAt o "full_name") (← amountAt o "price_yocto")
      (← accountAt o "seller")
  else if name = "sub_account_unlisted" then do
    return .subAccountUnlisted (← nameAt o "full_name") (← accountAt o "by")
  else if name = "offer_accepted" then do
    return .offerAccepted (← nameAt o "full_name") (← accountAt o "buyer")
      (← amountAt o "price_yocto") (← accountAt o "seller")
  else if name = "offer_revoked" then do
    return .offerRevoked (← nameAt o "full_name") (← accountAt o "by")
  else if name = "sub_account_sold" then do
    return .subAccountSold (← nameAt o "full_name") (← accountAt o "tla_id")
      (← accountAt o "seller") (← accountAt o "buyer") (← amountAt o "price_yocto")
      (← amountAt o "commission_yocto") (← amountAt o "seller_proceeds_yocto")
  else if name = "sub_account_sale_failed" then do
    return .subAccountSaleFailed (← nameAt o "full_name") (← accountAt o "buyer")
  else if name = "sub_account_sale_blocked" then do
    return .subAccountSaleBlocked (← nameAt o "full_name") (← tokenAt o)
      (← (textAt o "reason").map BlockReason.ofText)
  else none

/-- The event a line says, if it is a line of the registry. -/
def readLine (line : Str) : Option Event := do
  let rest ← readExactly Event.lineStart line
  let (name, rest) ← readText rest
  let rest ← readExactly ",\"data\":".toList rest
  let (o, rest) ← readObject rest
  if rest = "\x7d".toList then Event.ofFields (String.ofList name) o else none

/-! ## Every line is read back -/

@[simp] theorem AccountId.text_ne (a : AccountId) : a.text ≠ "" := by
  intro h
  have hchars : a.chars = [] := by simpa [text] using congrArg String.toList h
  have hvalid := a.valid
  rw [hchars] at hvalid
  exact absurd hvalid (by decide)

theorem Event.ofFields_fields (e : Event) : Event.ofFields e.name e.fields = some e := by
  cases e with
  | tlaRegistered tlaId tlaType premiumCategory licensee =>
    cases licensee <;>
      simp [ofFields, name, fields, member, textAt, accountAt, licenseeAt, List.lookup_cons]
  | subAccountSaleBlocked fullName token reason =>
    cases token <;>
      simp [ofFields, name, fields, member, textAt, nameAt, tokenAt, List.lookup_cons]
  | _ =>
    simp [ofFields, name, fields, member, textAt, numberAt, accountAt, nameAt, amountAt,
      List.lookup_cons]

/-- The name of an event needs no escape. The source writes it as it is. -/
theorem Event.isPlain_name (e : Event) : e.name.toList.all isPlain = true := by
  cases e <;> · simp only [name]; decide

/-- A reader of the line finds the event with all its values. -/
theorem Event.readLine_eq (e : Event) : readLine e.line = some e := by
  have hname := readText_flatMap e.name.toList
    (",\"data\":".toList ++ (writeObject e.fields ++ "\x7d".toList))
  rw [flatMap_escapeChar e.isPlain_name] at hname
  have hdata : "\",\"data\":".toList = '\x22' :: ",\"data\":".toList := by decide
  simp only [readLine, line, hdata, List.append_assoc, List.cons_append,
    readExactly_append, hname, readObject_writeObject, Option.bind_eq_bind, Option.bind_some,
    if_true, String.ofList_toList, ofFields_fields]

theorem Event.printable_line (e : Event) : Printable e.line := by
  have hstart : Printable lineStart := by decide
  have hname : Printable e.name.toList := printable_of_isPlain e.isPlain_name
  have hdata : Printable "\",\"data\":".toList := by decide
  have hend : Printable "\x7d".toList := by decide
  simp only [line, printable_append, hstart, hname, hdata, printable_writeObject, hend, and_self]

/-- The log loses nothing: an event is written on one line, whatever its values, no other
event is written as the same line, and a reader of the line finds the event. -/
theorem event_line_faithful (e : Event) :
    Printable e.line ∧ readLine e.line = some e ∧ ∀ e' : Event, e'.line = e.line → e' = e := by
  refine ⟨e.printable_line, e.readLine_eq, ?_⟩
  intro e' hline
  have hread := e'.readLine_eq
  rw [hline, e.readLine_eq] at hread
  exact (Option.some.inj hread).symm

end HosTla
