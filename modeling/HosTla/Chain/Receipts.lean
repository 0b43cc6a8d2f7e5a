-- SUMMARY: What a receipt outside the registry does to accounts and balances, one constructor for each branch.
import HosTla.Chain.Moves

/-!
# Receipts

`Receipt c id ok fl c'` says that the receipt or the locker callback the chain `fl` waits
for takes `c` to `c'`. Where the contracts branch there is a constructor for each branch,
with what it found.
-/

namespace HosTla

open Foundation

namespace Chain

@[simp] theorem accounts_setAccount_self (c : Chain) (a : AccountId) (state : Account) :
    (c.setAccount a state).accounts a = state := Function.update_self _ _ _

@[simp] theorem accounts_setAccount_ne {c : Chain} {a b : AccountId} {state : Account}
    (h : b ≠ a) : (c.setAccount a state).accounts b = c.accounts b := Function.update_of_ne h _ _

/-- The balances after a transfer of the token. -/
def transferFt (c : Chain) (ft sender receiver : AccountId) (amount : ℕ) : Chain :=
  let c' := c.setFtBalance ft sender (c.ftBalances ft sender - amount)
  c'.setFtBalance ft receiver (c'.ftBalances ft receiver + amount)

inductive Receipt (c : Chain) (id : ℕ) (ok : Bool) : Flight → Chain → Prop
  | createAccepted {p : PendingRent} {a : AccountId} {l : SubAccountLocker}
      (hbatch : c.managerBatch p = some (a, l)) :
      Receipt c id ok (.createCall p) (c.setFlight id (.createBatch p a l))
  | createRefused {p : PendingRent} :
      Receipt c id ok (.createCall p)
        ((c.setFlight id (.created p false)).send (.refund c.self p.creationDeposit))
  | created {p : PendingRent} {a : AccountId} {l : SubAccountLocker}
      (habsent : c.accounts a = .absent) :
      Receipt c id ok (.createBatch p a l)
        ((c.setFlight id (.created p true)).setAccount a (.locker l []))
  | batchFailed {p : PendingRent} {a : AccountId} {l : SubAccountLocker} :
      Receipt c id ok (.createBatch p a l)
        ((c.setFlight id (.created p false)).send (.refund p.tlaId p.creationDeposit))
  | refundSent {caller : AccountId} {amount : ℕ} :
      Receipt c id ok (.refundTransfer caller amount)
        (c.setFlight id (.refundSettled caller amount true))
  | refundFailed {caller : AccountId} {amount : ℕ} :
      Receipt c id ok (.refundTransfer caller amount)
        ((c.setFlight id (.refundSettled caller amount false)).send (.refund c.self amount))
  | refundArrived {receiver : AccountId} {amount : ℕ} :
      Receipt c id ok (.refund receiver amount)
        { c.dropFlight id with balance := c.balance + if receiver = c.self then amount else 0 }
  | sweepAccepted {a ft d : AccountId} {l : SubAccountLocker} {keys : List PublicKey}
      (hlocker : c.accounts a = .locker l keys) (hheld : l.state = .held) :
      Receipt c id ok (.sweepCall a ft d) (c.setFlight id (.sweepBalance a ft d))
  | depositSent {a ft d : AccountId} {balance : PromiseResult} {amount : ℕ}
      {l : SubAccountLocker} {keys : List PublicKey} (hlocker : c.accounts a = .locker l keys)
      (hbalance : SubAccountLocker.afterBalanceQuery balance = some amount) :
      Receipt c id ok (.sweepQueried a ft d balance) (c.setFlight id (.sweepDeposit a ft d amount))
  | deposited {a ft d : AccountId} {amount : ℕ} :
      Receipt c id ok (.sweepDeposit a ft d amount)
        (c.setFlight id (.sweepDeposited a ft d amount ok))
  | transferSent {a ft d : AccountId} {amount : ℕ} {l : SubAccountLocker}
      {keys : List PublicKey} (hlocker : c.accounts a = .locker l keys) :
      Receipt c id ok (.sweepDeposited a ft d amount true)
        (c.setFlight id (.sweepTransfer a ft d amount))
  | swept {a ft d : AccountId} {amount : ℕ} (hok : ok = true)
      (hle : amount ≤ c.ftBalances ft a) :
      Receipt c id ok (.sweepTransfer a ft d amount) ((c.transferFt ft a d amount).dropFlight id)
  | sweepEnded {fl : Flight} (hsweep : fl.isSweep = true) : Receipt c id ok fl (c.dropFlight id)
  | resaleEnded {a : AccountId} : Receipt c id ok (.resaleCall a) (c.dropFlight id)
  | finalizeAccepted {a : AccountId} {p : PendingReclaim} {l : SubAccountLocker}
      {keys : List PublicKey} (hlocker : c.accounts a = .locker l keys)
      (hheld : l.state = .held) :
      Receipt c id ok (.finalizeCall a p)
        { c.setFlight id (.deleteAccount a p c.nextId) with nextId := c.nextId + 1 }
  | finalizeAnswered {a : AccountId} {p : PendingReclaim} {answer : Bool}
      (hanswer : answer = true → ok = true ∧ c.accounts a = .foreign) :
      Receipt c id ok (.finalizeCall a p) (c.setFlight id (.reclaimFinalized p answer))
  | deleted {a : AccountId} {p : PendingReclaim} {sent : ℕ} (hok : ok = true)
      (hpresent : c.accounts a ≠ .absent) :
      Receipt c id ok (.deleteAccount a p sent)
        ((c.setFlight id (.reclaimFinalized p true)).setAccount a .absent)
  | deleteFailed {a : AccountId} {p : PendingReclaim} {sent : ℕ} :
      Receipt c id ok (.deleteAccount a p sent) (c.setFlight id (.reclaimFinalized p false))
  | exportAccepted {a tlaId : AccountId} {name : Str} {l : SubAccountLocker}
      {keys : List PublicKey} (hlocker : c.accounts a = .locker l keys)
      (hheld : l.state = .held) :
      Receipt c id ok (.exportCall a tlaId name)
        { (c.setFlight id (.addKey a tlaId name l.ownerKey c.nextId)).setAccount a
            (.locker { l with state := .exporting } keys) with nextId := c.nextId + 1 }
  | exportAnswered {a tlaId : AccountId} {name : Str} {answer : Bool}
      (hanswer : answer = true → ok = true ∧ c.accounts a = .foreign) :
      Receipt c id ok (.exportCall a tlaId name) (c.setFlight id (.exportSettled tlaId name answer))
  | keyAdded {a tlaId : AccountId} {name : Str} {key : PublicKey} {sent : ℕ}
      {l : SubAccountLocker} {keys : List PublicKey} (hok : ok = true)
      (hlocker : c.accounts a = .locker l keys) :
      Receipt c id ok (.addKey a tlaId name key sent)
        ((c.setFlight id (.exportResolved a tlaId name true)).setAccount a
          (.locker l (key :: keys)))
  | keyAnswered {a tlaId : AccountId} {name : Str} {key : PublicKey} {sent : ℕ} {answer : Bool}
      (hanswer : answer = true → ok = true ∧ c.accounts a = .foreign) :
      Receipt c id ok (.addKey a tlaId name key sent)
        (c.setFlight id (.exportResolved a tlaId name answer))
  | exportResolved {a tlaId : AccountId} {name : Str} {added : Bool} {l : SubAccountLocker}
      {keys : List PublicKey} (hlocker : c.accounts a = .locker l keys) :
      Receipt c id ok (.exportResolved a tlaId name added)
        ((c.setFlight id (.exportSettled tlaId name true)).setAccount a
          (.locker (l.onExportResolved added) keys))
  | resolvedElsewhere {a tlaId : AccountId} {name : Str} {added answer : Bool}
      (helse : ∀ l keys, c.accounts a ≠ .locker l keys)
      (hanswer : answer = true → ok = true ∧ c.accounts a = .foreign) :
      Receipt c id ok (.exportResolved a tlaId name added)
        (c.setFlight id (.exportSettled tlaId name answer))
  | transferred {a : AccountId} {b : PendingBuy} {l : SubAccountLocker} {keys : List PublicKey}
      (hok : ok = true) (hlocker : c.accounts a = .locker l keys) (hheld : l.state = .held) :
      Receipt c id ok (.transferCall a b)
        ((c.setFlight id (.sold b true)).setAccount a
          (.locker { l with ownerKey := b.newOwnerKey } keys))
  | transferAnswered {a : AccountId} {b : PendingBuy} {answer : Bool}
      (hanswer : answer = true → ok = true ∧ c.accounts a = .foreign) :
      Receipt c id ok (.transferCall a b) (c.setFlight id (.sold b answer))

variable {c c' : Chain} {id : ℕ} {ok : Bool} {fl : Flight}

theorem receipt_createCall {p : PendingRent} :
    c.Receipt id ok (.createCall p) (c.advanceCreateCall id ok p) := by
  unfold advanceCreateCall
  split
  · rename_i hbatch
    split
    · exact .createAccepted hbatch
    · exact .createRefused
  · exact .createRefused

theorem receipt_createBatch {p : PendingRent} {a : AccountId} {l : SubAccountLocker} :
    c.Receipt id ok (.createBatch p a l) (c.advanceCreateBatch id ok p a l) := by
  unfold advanceCreateBatch
  split
  · rename_i h
    exact .created h.2
  · exact .batchFailed

theorem receipt_refundTransfer {caller : AccountId} {amount : ℕ} :
    c.Receipt id ok (.refundTransfer caller amount) (c.advanceRefundTransfer id ok caller amount) := by
  unfold advanceRefundTransfer
  split
  · exact .refundSent
  · exact .refundFailed

theorem toBool_eq_true {ε α : Type} {x : Except ε α} : x.toBool = true ↔ ∃ a, x = .ok a := by
  cases x <;> simp [Except.toBool]

theorem receipt_sweep (h : c.advanceSweep id ok fl = some c') : c.Receipt id ok fl c' := by
  unfold advanceSweep at h
  split at h
  · split at h
    · rename_i l keys hlocker
      split at h
      · rename_i hsweep
        obtain ⟨u, hsweep⟩ := toBool_eq_true.mp hsweep.2
        cases h
        exact .sweepAccepted hlocker (SubAccountLocker.finalizeDelete_eq_ok.mp hsweep).2
      · cases h; exact .sweepEnded rfl
    · cases h; exact .sweepEnded rfl
  · split at h
    · rename_i hlocker hbalance
      cases h; exact .depositSent hlocker hbalance
    · cases h; exact .sweepEnded rfl
  · cases h; exact .deposited
  · split at h
    · rename_i hlocker
      split at h
      · rename_i hdeposited
        subst hdeposited
        cases h
        exact .transferSent hlocker
      · cases h; exact .sweepEnded rfl
    · cases h; exact .sweepEnded rfl
  · split at h
    · rename_i hswept
      cases h; exact .swept hswept.1 hswept.2
    · cases h; exact .sweepEnded rfl
  · cases h

theorem receipt_finalizeCall {a : AccountId} {p : PendingReclaim} :
    c.Receipt id ok (.finalizeCall a p) (c.advanceFinalizeCall id ok a p) := by
  unfold advanceFinalizeCall
  split
  · rename_i hlocker
    split
    · rename_i hfinalize
      obtain ⟨u, hfinalize⟩ := toBool_eq_true.mp hfinalize.2
      exact .finalizeAccepted hlocker (SubAccountLocker.finalizeDelete_eq_ok.mp hfinalize).2
    · exact .finalizeAnswered (by simp)
  · exact .finalizeAnswered (by simp)
  · rename_i hforeign
    exact .finalizeAnswered fun hok => ⟨hok, hforeign⟩

theorem receipt_deleteAccount {a : AccountId} {p : PendingReclaim} {sent : ℕ} :
    c.Receipt id ok (.deleteAccount a p sent) (c.advanceDeleteAccount id ok a p) := by
  unfold advanceDeleteAccount
  split
  · rename_i h
    exact .deleted h.1 h.2
  · exact .deleteFailed

theorem receipt_exportCall {a tlaId : AccountId} {name : Str} :
    c.Receipt id ok (.exportCall a tlaId name) (c.advanceExportCall id ok a tlaId name) := by
  unfold advanceExportCall
  split
  · rename_i hlocker
    split
    · rename_i hexport
      obtain ⟨-, hheld, rfl, rfl⟩ := SubAccountLocker.export_eq_ok.mp hexport
      split
      · exact .exportAccepted hlocker hheld
      · exact .exportAnswered (by simp)
    · exact .exportAnswered (by simp)
  · exact .exportAnswered (by simp)
  · rename_i hforeign
    exact .exportAnswered fun hok => ⟨hok, hforeign⟩

theorem receipt_addKey {a tlaId : AccountId} {name : Str} {key : PublicKey} {sent : ℕ} :
    c.Receipt id ok (.addKey a tlaId name key sent) (c.advanceAddKey id ok a tlaId name key) := by
  unfold advanceAddKey
  split
  · rename_i hlocker
    split
    · rename_i h
      exact .keyAdded h.1 hlocker
    · exact .keyAnswered (by simp)
  · exact .keyAnswered (by simp)
  · rename_i hforeign
    exact .keyAnswered fun hok => ⟨hok, hforeign⟩

theorem receipt_exportResolved {a tlaId : AccountId} {name : Str} {added : Bool} :
    c.Receipt id ok (.exportResolved a tlaId name added)
      (c.advanceExportResolved id ok a tlaId name added) := by
  unfold advanceExportResolved
  split
  · rename_i hlocker
    exact .exportResolved hlocker
  · rename_i habsent
    exact .resolvedElsewhere (by simp [habsent]) (by simp)
  · rename_i hforeign
    exact .resolvedElsewhere (by simp [hforeign]) fun hok => ⟨hok, hforeign⟩

theorem receipt_transferCall {a : AccountId} {b : PendingBuy} :
    c.Receipt id ok (.transferCall a b) (c.advanceTransferCall id ok a b) := by
  unfold advanceTransferCall transferredLocker
  split
  · rename_i account haccount
    split at haccount
    · rename_i hlocker
      split at haccount
      · rename_i htransfer
        obtain ⟨-, hheld, rfl⟩ := SubAccountLocker.transfer_eq_ok.mp htransfer
        cases haccount
        split
        · rename_i hok
          exact .transferred hok hlocker hheld
        · exact .transferAnswered (by simp)
      · cases haccount
    · cases haccount
  · exact .transferAnswered (by simp)

theorem receipt_of_advance (h : c.advance id ok fl = some c') : c.Receipt id ok fl c' := by
  cases fl with
  | createCall => cases h; exact receipt_createCall
  | createBatch => cases h; exact receipt_createBatch
  | refundTransfer => cases h; exact receipt_refundTransfer
  | finalizeCall => cases h; exact receipt_finalizeCall
  | deleteAccount => cases h; exact receipt_deleteAccount
  | exportCall => cases h; exact receipt_exportCall
  | addKey => cases h; exact receipt_addKey
  | exportResolved => cases h; exact receipt_exportResolved
  | transferCall => cases h; exact receipt_transferCall
  | resaleCall => cases h; exact .resaleEnded
  | refund => cases h; exact .refundArrived
  | _ => exact receipt_sweep h

/-- The batch after `create_sub_account` is the one the manager has sent. -/
theorem managerBatch_of_advance {p : PendingRent} {a : AccountId} {l : SubAccountLocker}
    (hadvance : c.advance id ok (.createCall p) = some c')
    (hget : c'.flights.get id = some (.createBatch p a l)) : c.managerBatch p = some (a, l) := by
  cases receipt_of_advance hadvance with
  | createAccepted hbatch =>
    rw [setFlight, LookupMap.get_insert_self] at hget
    cases hget
    exact hbatch
  | createRefused =>
    rcases LookupMap.get_of_get_insert hget with ⟨-, heq⟩ | ⟨-, hget⟩
    · cases heq
    · rw [setFlight, LookupMap.get_insert_self] at hget
      cases hget
  | sweepEnded hsweep => cases hsweep

end Chain

end HosTla
