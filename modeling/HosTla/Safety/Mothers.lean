-- SUMMARY: When a designated mother stays protected, and when only the owner can protect an account.
import HosTla.Custody.Refinement

/-!
# Mothers

`mother_use_count` is meant to be positive exactly when the owner of a managed
account has named it as mother. Each direction fails in some runs. The steps
that keep it are given event by event, and they are the only ones that do.
-/

namespace HosTla

open Foundation

/-! ## Use counts after an event -/

namespace Custody

variable {s : Custody}

theorem uses_ensureMother (user a : AccountId) :
    (s.ensureMother user).uses a =
      if a = user ∧ s.mother user = none ∧ s.managed user then satAdd u32Max (s.uses user) 1
      else s.uses a := by
  unfold ensureMother
  cases hm : s.mother user with
  | some m => simp
  | none =>
    by_cases hmanaged : s.managed user
    · simp [hmanaged, uses_use]
    · simp [hmanaged]

theorem uses_ensureMother_pos {user a : AccountId} (h : 0 < s.uses a) :
    0 < (s.ensureMother user).uses a := by
  rw [uses_ensureMother]
  split
  · exact satAdd_one_pos _
  · exact h

/-- A free key is nobody's use. -/
theorem uses_ensureMother_of_free {user a : AccountId} (h : s.holder a.chars = none) :
    (s.ensureMother user).uses a = s.uses a := by
  rw [uses_ensureMother, if_neg]
  rintro ⟨rfl, -, hmanaged⟩
  simp [managed, h] at hmanaged

theorem uses_designate_self {user m : AccountId} (hne : s.mother user ≠ some m)
    (hmanaged : s.managed m) : 0 < (s.designate user m).uses m := by
  unfold designate
  rw [if_neg hne, if_pos hmanaged]
  exact uses_use_pos _ _

theorem uses_designate_old {user m old : AccountId} (hold : s.mother user = some old)
    (hne : old ≠ m) : (s.designate user m).uses old = s.uses old - 1 := by
  have hne' : s.mother user ≠ some m := by
    rw [hold]; intro h; exact hne (Option.some.inj h)
  unfold designate
  rw [if_neg hne', hold]
  by_cases hmanaged : s.managed m
  · simp [hmanaged, uses_use, uses_unuse, hne]
  · simp [hmanaged, uses_unuse]

theorem uses_designate_other {user m a : AccountId} (ha : a ≠ m) (hold : s.mother user ≠ some a) :
    (s.designate user m).uses a = s.uses a := by
  unfold designate
  split
  · rfl
  · cases hm : s.mother user with
    | none => by_cases hmanaged : s.managed m <;> simp [hmanaged, uses_use, ha]
    | some old =>
      have hne : a ≠ old := by
        rintro rfl; exact hold hm
      by_cases hmanaged : s.managed m <;> simp [hmanaged, uses_use, uses_unuse, ha, hne]

theorem apply_clear {user old : AccountId} (h : s.mother user = some old) :
    s.apply (.clear user) = (s.setMother user none).unuse old := by
  simp [apply, h]

/-! ## A designated mother is in use -/

/-- An account whose owner has named it as mother is in use. -/
def Protected (s : Custody) : Prop :=
  ∀ a h, s.holder a.chars = some h → s.mother h.owner = some a → 0 < s.uses a

/-- A user leaves its mother without a use of the owner going lost. -/
def LeavesProtected (s : Custody) (user old : AccountId) : Prop :=
  ∀ h, s.holder old.chars = some h → h.owner ≠ user → s.mother h.owner = some old →
    2 ≤ s.uses old

/-- The events that keep designated mothers in use: nobody gets hold of an account
it has named already, unless the account is in use, and nobody takes the last use
of an account that its owner has named. -/
def KeepsProtected (s : Custody) : CustodyEvent → Prop
  | .rent user tlaId name =>
    ∀ a, a.chars = subAccountKey tlaId name → (s.mother user).getD user = a → 0 < s.uses a
  | .sell key buyer =>
    ∀ a, a.chars = key → s.managed a → s.mother buyer = some a → 0 < s.uses a
  | .designate user m =>
    ∀ old, s.mother user = some old → old ≠ m → s.LeavesProtected user old
  | .clear user => ∀ old, s.mother user = some old → s.LeavesProtected user old
  | _ => True

theorem protected_rent_iff {user tlaId : AccountId} {name : Str} (hP : s.Protected)
    (hfree : s.holder (subAccountKey tlaId name) = none) :
    (s.apply (.rent user tlaId name)).Protected ↔ s.KeepsProtected (.rent user tlaId name) := by
  simp only [apply, KeepsProtected, Protected, holder_setHolder, mother_setHolder, uses_setHolder,
    holder_ensureMother, mother_ensureMother]
  constructor
  · intro h a ha hmother
    have := h a ⟨user, tlaId⟩ (by rw [if_pos ha]) (by rw [if_pos rfl, hmother])
    rwa [uses_ensureMother_of_free (ha ▸ hfree)] at this
  · intro h a hd hget hmother
    -- The new account, then the accounts the renter had before, then those of others.
    split at hget
    · rename_i ha
      cases hget
      rw [if_pos rfl, Option.some.injEq] at hmother
      exact uses_ensureMother_pos (h a ha hmother)
    · split at hmother
      · rename_i howner
        rw [Option.some.injEq] at hmother
        -- A renter that becomes its own mother gets a use if it is managed.
        cases hm : s.mother user with
        | none =>
          rw [hm, Option.getD_none] at hmother
          have hmanaged : s.managed user := by simp [managed, hmother, hget]
          rw [uses_ensureMother, if_pos ⟨hmother.symm, hm, hmanaged⟩]
          exact satAdd_one_pos _
        | some m =>
          rw [hm, Option.getD_some] at hmother
          exact uses_ensureMother_pos (hP a hd hget (by rw [howner, hm, hmother]))
      · exact uses_ensureMother_pos (hP a hd hget hmother)

theorem protected_release {key : Str} (hP : s.Protected) :
    (s.apply (.release key)).Protected := by
  intro a hd hget hmother
  simp only [apply, holder_setHolder, mother_setHolder] at hget hmother
  split at hget
  · cases hget
  · exact hP a hd hget hmother

theorem protected_sell_iff {key : Str} {buyer : AccountId} (hP : s.Protected) :
    (s.apply (.sell key buyer)).Protected ↔ s.KeepsProtected (.sell key buyer) := by
  simp only [apply, KeepsProtected, Protected, holder_setHolder, mother_setHolder, uses_setHolder]
  constructor
  · intro h a ha hmanaged hmother
    obtain ⟨hd, hget⟩ := Option.isSome_iff_exists.mp hmanaged
    exact h a { hd with owner := buyer } (by rw [if_pos ha, ← ha, hget]; rfl) hmother
  · intro h a hd hget hmother
    split at hget
    · rename_i ha
      rw [Option.map_eq_some_iff] at hget
      obtain ⟨hd₀, hget, rfl⟩ := hget
      exact h a ha (by simp [managed, ha, hget]) hmother
    · exact hP a hd hget hmother

/-- Taking one use of `old` away from a state in which it is in use. -/
theorem leaves_iff (s' : Custody) {user old : AccountId} (hold : s.mother user = some old)
    (hholder : s'.holder = s.holder) (huser : s'.mother user ≠ some old)
    (hmother : ∀ w, w ≠ user → s'.mother w = s.mother w) (huses : s'.uses old = s.uses old - 1)
    (hrest : ∀ a h, a ≠ old → s.holder a.chars = some h → s'.mother h.owner = some a →
      0 < s'.uses a) :
    s'.Protected ↔ s.LeavesProtected user old := by
  constructor
  · intro h hd hget hne hm
    have := h old hd (by rw [hholder, hget]) (by rw [hmother _ hne, hm])
    omega
  · intro h a hd hget hm
    rw [hholder] at hget
    by_cases ha : a = old
    · subst ha
      have hne : hd.owner ≠ user := by
        rintro rfl; exact huser hm
      have := h hd hget hne (by rw [← hmother _ hne, hm])
      omega
    · exact hrest a hd ha hget hm

theorem protected_designate_iff {user m : AccountId} (hP : s.Protected) :
    (s.apply (.designate user m)).Protected ↔ s.KeepsProtected (.designate user m) := by
  simp only [apply, KeepsProtected]
  by_cases hsame : s.mother user = some m
  · have heq : s.designate user m = s := by simp [designate, hsame]
    rw [heq]
    refine iff_of_true hP ?_
    intro old hold hne
    rw [hsame, Option.some.injEq] at hold
    exact absurd hold.symm hne
  -- The accounts that are not left lose no use.
  · have hother : ∀ a h, s.mother user ≠ some a → s.holder a.chars = some h →
        (s.designate user m).mother h.owner = some a → 0 < (s.designate user m).uses a := by
      intro a hd hold hget hm
      rw [mother_designate] at hm
      by_cases ha : a = m
      · subst ha
        exact uses_designate_self hsame (by simp [managed, hget])
      · rw [uses_designate_other ha hold]
        split at hm
        · exact absurd (Option.some.inj hm).symm ha
        · exact hP a hd hget hm
    cases hold : s.mother user with
    | none =>
      refine iff_of_true ?_ (by simp)
      intro a hd hget hm
      rw [holder_designate] at hget
      exact hother a hd (by simp [hold]) hget hm
    | some old =>
      have hne : old ≠ m := by
        rintro rfl; exact hsame hold
      rw [leaves_iff _ hold (holder_designate s user m)
        (by simpa [mother_designate] using Ne.symm hne)
        (fun w hw => by simp [mother_designate, hw]) (uses_designate_old hold hne)
        (fun a hd ha hget hm => hother a hd (by simpa [hold] using Ne.symm ha) hget hm)]
      constructor
      · intro h old' hold' _
        cases hold'
        exact h
      · intro h
        exact h old rfl hne

theorem protected_clear_iff {user : AccountId} (hP : s.Protected) (hset : s.mother user ≠ none) :
    (s.apply (.clear user)).Protected ↔ s.KeepsProtected (.clear user) := by
  obtain ⟨old, hold⟩ := Option.ne_none_iff_exists'.mp hset
  rw [apply_clear hold]
  rw [leaves_iff ((s.setMother user none).unuse old) hold rfl
    (by simp [mother_setMother]) (fun w hw => by simp [mother_setMother, hw])
    (by simp [uses_unuse])
    (fun a hd ha hget hm => by
      rw [mother_unuse, mother_setMother] at hm
      rw [uses_unuse, if_neg ha]
      split at hm
      · cases hm
      · exact hP a hd hget hm)]
  constructor
  · intro h old' hold'
    rw [hold] at hold'
    cases hold'
    exact h
  · intro h
    exact h old hold

theorem protected_apply_iff {e : CustodyEvent} (hP : s.Protected) (hallowed : s.Allowed e) :
    (s.apply e).Protected ↔ s.KeepsProtected e := by
  cases e with
  | keep => exact iff_of_true hP trivial
  | rent => exact protected_rent_iff hP hallowed.1
  | release => exact iff_of_true (protected_release hP) trivial
  | sell => exact protected_sell_iff hP
  | designate => exact protected_designate_iff hP
  | clear => exact protected_clear_iff hP hallowed

/-! ## An account in use is its owner's mother -/

/-- A managed account in use has an owner who has named it. -/
def OwnedUse (s : Custody) : Prop :=
  ∀ a h, s.holder a.chars = some h → 0 < s.uses a → s.mother h.owner = some a

/-- A user that owns the mother it leaves held its only use. -/
def LeavesUnused (s : Custody) (user old : AccountId) : Prop :=
  ∀ h, s.holder old.chars = some h → h.owner = user → s.uses old ≤ 1

/-- The events after which only owners have accounts in use: an account changes
hands only to a user that has named it, unless it is out of use, and an owner that
leaves it takes its last use. -/
def KeepsOwnedUse (s : Custody) : CustodyEvent → Prop
  | .rent user tlaId name =>
    (∀ a, a.chars = subAccountKey tlaId name → 0 < s.uses a → (s.mother user).getD user = a) ∧
      (s.mother user = none → ∀ h, s.holder user.chars = some h → h.owner ≠ user →
        s.mother h.owner = some user)
  | .sell key buyer =>
    ∀ a, a.chars = key → s.managed a → 0 < s.uses a → s.mother buyer = some a
  | .designate user m =>
    ∀ old, s.mother user = some old → old ≠ m → s.LeavesUnused user old
  | .clear user => ∀ old, s.mother user = some old → s.LeavesUnused user old
  | _ => True

theorem ownedUse_rent_iff {user tlaId : AccountId} {name : Str} (hP : s.OwnedUse)
    (hfree : s.holder (subAccountKey tlaId name) = none) :
    (s.apply (.rent user tlaId name)).OwnedUse ↔ s.KeepsOwnedUse (.rent user tlaId name) := by
  simp only [apply, KeepsOwnedUse, OwnedUse, holder_setHolder, mother_setHolder, uses_setHolder,
    holder_ensureMother, mother_ensureMother]
  constructor
  · intro h
    refine ⟨?_, ?_⟩
    · intro a ha huse
      have := h a ⟨user, tlaId⟩ (by rw [if_pos ha])
        (by rwa [uses_ensureMother_of_free (ha ▸ hfree)])
      rwa [if_pos rfl, Option.some.injEq] at this
    · intro hm hd hget hne
      have hkey : user.chars ≠ subAccountKey tlaId name := by
        intro hkey
        rw [hkey, hfree] at hget
        cases hget
      have := h user hd (by rw [if_neg hkey, hget]) (by
        rw [uses_ensureMother, if_pos ⟨rfl, hm, by simp [managed, hget]⟩]
        exact satAdd_one_pos _)
      rwa [if_neg hne] at this
  · rintro ⟨hkey, huser⟩ a hd hget huse
    split at hget
    · rename_i ha
      cases hget
      rw [uses_ensureMother_of_free (ha ▸ hfree)] at huse
      rw [if_pos rfl, hkey a ha huse]
    · by_cases hself : a = user ∧ s.mother user = none ∧ s.managed user
      · obtain ⟨rfl, hm, -⟩ := hself
        split
        · rw [hm, Option.getD_none]
        · rename_i hne
          exact huser hm hd hget hne
      · rw [uses_ensureMother, if_neg hself] at huse
        have hold := hP a hd hget huse
        split
        · rename_i howner
          rw [← howner, hold, Option.getD_some]
        · exact hold

theorem ownedUse_release {key : Str} (hP : s.OwnedUse) :
    (s.apply (.release key)).OwnedUse := by
  intro a hd hget huse
  simp only [apply, holder_setHolder, uses_setHolder] at hget huse
  split at hget
  · cases hget
  · exact hP a hd hget huse

theorem ownedUse_sell_iff {key : Str} {buyer : AccountId} (hP : s.OwnedUse) :
    (s.apply (.sell key buyer)).OwnedUse ↔ s.KeepsOwnedUse (.sell key buyer) := by
  simp only [apply, KeepsOwnedUse, OwnedUse, holder_setHolder, mother_setHolder, uses_setHolder]
  constructor
  · intro h a ha hmanaged huse
    obtain ⟨hd, hget⟩ := Option.isSome_iff_exists.mp hmanaged
    exact h a { hd with owner := buyer } (by rw [if_pos ha, ← ha, hget]; rfl) huse
  · intro h a hd hget huse
    split at hget
    · rename_i ha
      rw [Option.map_eq_some_iff] at hget
      obtain ⟨hd₀, hget, rfl⟩ := hget
      exact h a ha (by simp [managed, ha, hget]) huse
    · exact hP a hd hget huse

/-- What is left after `user` has left `old`. -/
theorem leavesUnused_iff (s' : Custody) {user old : AccountId} (hold : s.mother user = some old)
    (hP : s.OwnedUse) (hholder : s'.holder = s.holder)
    (huser : s'.mother user ≠ some old)
    (hmother : ∀ w, w ≠ user → s'.mother w = s.mother w) (huses : s'.uses old = s.uses old - 1)
    (hrest : ∀ a h, a ≠ old → s.holder a.chars = some h → 0 < s'.uses a →
      s'.mother h.owner = some a) :
    s'.OwnedUse ↔ s.LeavesUnused user old := by
  constructor
  · intro h hd hget howner
    -- A second use would be left, and the owner has gone.
    by_contra hlarge
    have := h old hd (by rw [hholder, hget]) (by omega)
    rw [howner] at this
    exact huser this
  · intro h a hd hget huse
    rw [hholder] at hget
    by_cases ha : a = old
    · subst ha
      by_cases howner : hd.owner = user
      · have := h hd hget howner
        omega
      · rw [hmother _ howner]
        exact hP a hd hget (by omega)
    · exact hrest a hd ha hget huse

theorem ownedUse_designate_iff {user m : AccountId} (hP : s.OwnedUse)
    (howner : ∀ h, s.holder m.chars = some h → h.owner = user) :
    (s.apply (.designate user m)).OwnedUse ↔ s.KeepsOwnedUse (.designate user m) := by
  simp only [apply, KeepsOwnedUse]
  by_cases hsame : s.mother user = some m
  · have heq : s.designate user m = s := by simp [designate, hsame]
    rw [heq]
    refine iff_of_true hP ?_
    intro old hold hne
    rw [hsame, Option.some.injEq] at hold
    exact absurd hold.symm hne
  -- The accounts that are not left gain a use only from their owner.
  · have hother : ∀ a h, s.mother user ≠ some a → s.holder a.chars = some h →
        0 < (s.designate user m).uses a → (s.designate user m).mother h.owner = some a := by
      intro a hd hold hget huse
      rw [mother_designate]
      by_cases ha : a = m
      · subst ha
        rw [if_pos (howner hd hget)]
      · rw [uses_designate_other ha hold] at huse
        have := hP a hd hget huse
        rw [if_neg]
        · exact this
        · rintro rfl; exact hold this
    cases hold : s.mother user with
    | none =>
      refine iff_of_true ?_ (by simp)
      intro a hd hget huse
      rw [holder_designate] at hget
      exact hother a hd (by simp [hold]) hget huse
    | some old =>
      have hne : old ≠ m := by
        rintro rfl; exact hsame hold
      rw [leavesUnused_iff _ hold hP (holder_designate s user m)
        (by simpa [mother_designate] using Ne.symm hne)
        (fun w hw => by simp [mother_designate, hw]) (uses_designate_old hold hne)
        (fun a hd ha hget huse => hother a hd (by simpa [hold] using Ne.symm ha) hget huse)]
      constructor
      · intro h old' hold' _
        cases hold'
        exact h
      · intro h
        exact h old rfl hne

theorem ownedUse_clear_iff {user : AccountId} (hP : s.OwnedUse) (hset : s.mother user ≠ none) :
    (s.apply (.clear user)).OwnedUse ↔ s.KeepsOwnedUse (.clear user) := by
  obtain ⟨old, hold⟩ := Option.ne_none_iff_exists'.mp hset
  rw [apply_clear hold]
  rw [leavesUnused_iff ((s.setMother user none).unuse old) hold hP rfl
    (by simp [mother_setMother]) (fun w hw => by simp [mother_setMother, hw])
    (by simp [uses_unuse])
    (fun a hd ha hget huse => by
      rw [uses_unuse, if_neg ha, uses_setMother] at huse
      have := hP a hd hget huse
      rw [mother_unuse, mother_setMother, if_neg]
      · exact this
      · rintro rfl
        rw [hold] at this
        exact ha (Option.some.inj this).symm)]
  constructor
  · intro h old' hold'
    rw [hold] at hold'
    cases hold'
    exact h
  · intro h
    exact h old hold

theorem ownedUse_apply_iff {e : CustodyEvent} (hP : s.OwnedUse) (hallowed : s.Allowed e) :
    (s.apply e).OwnedUse ↔ s.KeepsOwnedUse e := by
  cases e with
  | keep => exact iff_of_true hP trivial
  | rent => exact ownedUse_rent_iff hP hallowed.1
  | release => exact iff_of_true (ownedUse_release hP) trivial
  | sell => exact ownedUse_sell_iff hP
  | designate => exact ownedUse_designate_iff hP hallowed
  | clear => exact ownedUse_clear_iff hP hallowed

end Custody

/-! ## Runs of the registry -/

namespace TlaRegistry

/-- The calls that use up or sell an account are rejected. -/
def Blocks (r : TlaRegistry) (a : AccountId) : Prop :=
  ∀ env tlaId name o, subAccountKey tlaId name = a.chars →
    (∀ ft, r.reclaimSweepFt env tlaId name ft ≠ .ok o) ∧
      r.reclaimFinalize env tlaId name ≠ .ok o ∧ r.exportSubAccount env tlaId name ≠ .ok o ∧
      (∀ price, r.listSubAccount env tlaId name price ≠ .ok o) ∧
      (∀ buyer price, r.acceptOffer env tlaId name buyer price ≠ .ok o) ∧
      ∀ newOwnerKey, r.buySubAccount env tlaId name newOwnerKey ≠ .ok o

theorem not_assertSellable {r : TlaRegistry} {a : AccountId} (huse : 0 < r.getMotherUseCount a)
    {env : Env} {key : Str} (hkey : key = a.chars) {tlaId owner : AccountId} :
    r.assertSellable env key tlaId ≠ .ok owner := by
  intro h
  obtain ⟨b, -, -, hb, hcount, -⟩ := assertSellable_eq_ok.mp h
  rw [hkey, AccountId.chars_inj] at hb
  subst hb
  omega

theorem blocks_of_use {r : TlaRegistry} {a : AccountId} (huse : 0 < r.getMotherUseCount a) :
    r.Blocks a := by
  intro env tlaId name o hkey
  -- Each call parses the account from the key and checks its count.
  have hparts : ∀ b : AccountId, b.chars = subAccountKey tlaId name → r.getMotherUseCount b ≠ 0 := by
    intro b hb
    rw [hkey, AccountId.chars_inj] at hb
    subst hb
    omega
  refine ⟨?_, ?_, ?_, ?_, ?_, ?_⟩
  · intro ft h
    cases accepted_of_reclaimSweepFt h with
    | reclaimSweepFt _ _ hb hcount => exact hparts _ hb hcount
    | configured hop => cases hop
    | resale hop => cases hop
  · intro h
    cases accepted_of_reclaimFinalize h with
    | reclaimFinalize _ hb hcount => exact hparts _ hb hcount
    | configured hop => cases hop
    | resale hop => cases hop
  · intro h
    cases accepted_of_exportSubAccount h with
    | exportSubAccount _ _ hb hcount => exact hparts _ hb hcount
    | configured hop => cases hop
    | resale hop => cases hop
  · intro price h
    cases accepted_of_listSubAccount h with
    | listSubAccount _ _ _ _ hsell => exact not_assertSellable huse hkey hsell
    | configured hop => cases hop
    | resale hop => cases hop
  · intro buyer price h
    cases accepted_of_acceptOffer h with
    | acceptOffer _ _ _ _ hsell => exact not_assertSellable huse hkey hsell
    | configured hop => cases hop
    | resale hop => cases hop
  · intro newOwnerKey h
    cases accepted_of_buySubAccount h with
    | buySubAccount _ _ hsell => exact not_assertSellable huse hkey hsell
    | configured hop => cases hop
    | resale hop => cases hop

/-- Every managed account that its owner has named as mother is in use and blocked. -/
def MothersProtected (r : TlaRegistry) : Prop :=
  ∀ a sub, r.subAccounts.get a.chars = some sub → r.mothers.get sub.owner = some a →
    0 < r.getMotherUseCount a ∧ r.Blocks a

/-- Every managed account in use is the mother its owner has named. -/
def UsesOwned (r : TlaRegistry) : Prop :=
  ∀ a sub, r.subAccounts.get a.chars = some sub → 0 < r.getMotherUseCount a →
    r.mothers.get sub.owner = some a

theorem mothersProtected_iff {r : TlaRegistry} : r.MothersProtected ↔ r.custody.Protected := by
  constructor
  · intro h a hd hget hmother
    obtain ⟨sub, hsub, howner, -⟩ := custody_holder_eq_some.mp hget
    exact (h a sub hsub (by rw [howner]; exact hmother)).1
  · intro h a sub hsub hmother
    have huse := h a _ (custody_holder_of_get hsub) hmother
    exact ⟨huse, blocks_of_use huse⟩

theorem usesOwned_iff {r : TlaRegistry} : r.UsesOwned ↔ r.custody.OwnedUse := by
  constructor
  · intro h a hd hget huse
    obtain ⟨sub, hsub, howner, -⟩ := custody_holder_eq_some.mp hget
    rw [← howner]
    exact h a sub hsub huse
  · intro h a sub hsub huse
    exact h a _ (custody_holder_of_get hsub) huse

end TlaRegistry

/-- The steps that keep designated mothers in use. -/
def Chain.KeepsProtected (c : Chain) (l : Label) : Prop :=
  c.registry.custody.KeepsProtected (c.custodyEvent l)

/-- The steps that keep uses with the owners. -/
def Chain.KeepsOwnedUse (c : Chain) (l : Label) : Prop :=
  c.registry.custody.KeepsOwnedUse (c.custodyEvent l)

/-- Designated mothers are protected all along a run exactly when every step of it
keeps them in use. -/
theorem mothers_protected_iff {g : Genesis} {tr : List (Transition Chain Label)} {c : Chain}
    (hrun : Run Chain.step (Chain.init g) tr c) :
    (∀ t ∈ tr, t.after.registry.MothersProtected) ↔ Meets Chain.KeepsProtected tr := by
  simp only [TlaRegistry.mothersProtected_iff]
  refine hrun.exact (P := fun c => c.registry.custody.Protected) ?_ ?_
  · intro a hd hget
    cases hget
  · intro c l c' _ hP hstep
    obtain ⟨hallowed, heq⟩ := Chain.custody_step hstep
    rw [heq]
    exact Custody.protected_apply_iff hP hallowed

/-- Only owners have accounts in use all along a run exactly when every step of it
keeps uses with the owners. -/
theorem uses_owned_iff {g : Genesis} {tr : List (Transition Chain Label)} {c : Chain}
    (hrun : Run Chain.step (Chain.init g) tr c) :
    (∀ t ∈ tr, t.after.registry.UsesOwned) ↔ Meets Chain.KeepsOwnedUse tr := by
  simp only [TlaRegistry.usesOwned_iff]
  refine hrun.exact (P := fun c => c.registry.custody.OwnedUse) ?_ ?_
  · intro a hd hget
    cases hget
  · intro c l c' _ hP hstep
    obtain ⟨hallowed, heq⟩ := Chain.custody_step hstep
    rw [heq]
    exact Custody.ownedUse_apply_iff hP hallowed

/-! ## Runs that break the relation -/

namespace Sample

/-- Bob names `n.hos` before Alice rents it and names it as well. Then he moves away. -/
def namedFirst : List Label :=
  opening ++ [call bob 1 (.setMother sub), rent alice, call alice 1 (.setMother sub),
    call bob 1 (.setMother bob)]

/-- Alice names her account as mother while its sale to Bob is in flight. -/
def namedOnSale : List Label :=
  rented ++ [call alice 1 (.listSubAccount tla name oneNear),
    call bob oneNear (.buySubAccount tla name otherKey), call alice 1 (.setMother sub),
    .deliver 4 true, .deliver 4 true]

end Sample

/-- Bob's use was never counted, but its end takes away the use of the owner. -/
theorem mother_named_first_unprotected :
    ∃ c : Chain, c.Reached Sample.genesis ∧ ¬ c.registry.MothersProtected := by
  refine ⟨Sample.after Sample.namedFirst (by decide +kernel), Sample.reached _ _, ?_⟩
  intro h
  have huse := h Sample.sub (Option.get _ (by decide +kernel)) (Option.some_get _).symm
    (by decide +kernel)
  exact absurd huse.1 (by decide +kernel)

theorem mothers_protected_iff_rented :
    ∃ tr c, tr.map Transition.label = Sample.rented ++ [Sample.call Sample.alice 1
        (.setMother Sample.sub)] ∧ Run Chain.step (Chain.init Sample.genesis) tr c ∧
      ((∀ t ∈ tr, t.after.registry.MothersProtected) ↔ Meets Chain.KeepsProtected tr) := by
  obtain ⟨tr, hrun, hlabels⟩ := Sample.exists_run
    (Sample.rented ++ [Sample.call Sample.alice 1 (.setMother Sample.sub)]) (by decide +kernel)
  exact ⟨tr, _, hlabels, hrun, mothers_protected_iff hrun⟩

/-- The seller's mother setting outlives the sale and blocks the buyer. -/
theorem seller_use_outlives_sale :
    ∃ c : Chain, c.Reached Sample.genesis ∧ ¬ c.registry.UsesOwned := by
  refine ⟨Sample.after Sample.namedOnSale (by decide +kernel), Sample.reached _ _, ?_⟩
  intro h
  have howner := h Sample.sub (Option.get _ (by decide +kernel)) (Option.some_get _).symm
    (by decide +kernel)
  exact absurd howner (by decide +kernel)

theorem uses_owned_iff_rented :
    ∃ tr c, tr.map Transition.label = Sample.rented ++ [Sample.call Sample.alice 1
        (.setMother Sample.sub)] ∧ Run Chain.step (Chain.init Sample.genesis) tr c ∧
      ((∀ t ∈ tr, t.after.registry.UsesOwned) ↔ Meets Chain.KeepsOwnedUse tr) := by
  obtain ⟨tr, hrun, hlabels⟩ := Sample.exists_run
    (Sample.rented ++ [Sample.call Sample.alice 1 (.setMother Sample.sub)]) (by decide +kernel)
  exact ⟨tr, _, hlabels, hrun, uses_owned_iff hrun⟩

end HosTla
