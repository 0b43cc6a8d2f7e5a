-- SUMMARY: What the promises in flight are still about to do to the accounts and their entries, and when no two get in each other's way.
import HosTla.Chain.System

/-!
# Errands

An estate is the accounts, the managed keys, and the errands still under way. It is sound
when each key has one errand that decides about its entry at most, and an account without
full-access keys has its entry and no such errand.
-/

namespace HosTla

open Foundation

inductive Errand
  /-- The account of the key is about to be created. -/
  | create (key : Str)
  /-- The entry of the key is about to be removed. -/
  | remove (key : Str)
  /-- The account is about to delete itself. Errands it sent to itself are numbered. -/
  | delete (a : AccountId) (sent : ℕ)
  /-- The account is about to add a full-access key to itself. -/
  | addKey (a : AccountId) (sent : ℕ)

/-- The key whose entry the errand decides about. -/
def Errand.key : Errand → Option Str
  | .create key | .remove key => some key
  | _ => none

structure Estate where
  accounts : AccountId → Account
  managed : Str → Bool
  errands : ℕ → Option Errand
  nextId : ℕ

namespace Estate

def put (s : Estate) (id : ℕ) (e : Option Errand) : Estate :=
  { s with errands := Function.update s.errands id e }

def setAccount (s : Estate) (a : AccountId) (state : Account) : Estate :=
  { s with accounts := Function.update s.accounts a state }

def setManaged (s : Estate) (key : Str) (managed : Bool) : Estate :=
  { s with managed := Function.update s.managed key managed }

def tick (s : Estate) : Estate := { s with nextId := s.nextId + 1 }

/-- The account runs the locker and has no full-access key. -/
def Bare (s : Estate) (a : AccountId) : Prop := ∃ l, s.accounts a = .locker l []

/-- The same in the middle of an export. -/
def Exporting (s : Estate) (a : AccountId) : Prop :=
  ∃ l, s.accounts a = .locker l [] ∧ l.state = .exporting

structure Sound (s : Estate) : Prop where
  entry : ∀ i e key, s.errands i = some e → e.key = some key → s.managed key = true
  single : ∀ i j e e' key, s.errands i = some e → s.errands j = some e' →
    e.key = some key → e'.key = some key → i = j
  bareManaged : ∀ a, s.Bare a → s.managed a.chars = true
  bareAlone : ∀ a, s.Bare a → ∀ i e, s.errands i = some e → e.key ≠ some a.chars
  /-- A key is added to no locker that is held. -/
  held : ∀ a l keys, s.accounts a = .locker l keys → l.state = .held → keys = []
  deleting : ∀ i a n, s.errands i = some (.delete a n) → s.accounts a = .absent ∨ s.Bare a
  adding : ∀ i a n, s.errands i = some (.addKey a n) → s.accounts a = .absent ∨ s.Exporting a
  uncreated : ∀ i j a n, s.errands i = some (.addKey a n) →
    s.errands j ≠ some (.create a.chars)
  oneKey : ∀ i j a m n, s.errands i = some (.addKey a m) → s.errands j = some (.addKey a n) → i = j
  /-- An account sends no deletion after its key. -/
  order : ∀ i j a m n, s.errands i = some (.delete a m) → s.errands j = some (.addKey a n) → m < n
  sent : ∀ i a n, s.errands i = some (.delete a n) → n < s.nextId

variable {s s' : Estate} {id : ℕ} {a : AccountId} {key : Str}

theorem Exporting.bare (h : s.Exporting a) : s.Bare a := by
  obtain ⟨l, hl, -⟩ := h
  exact ⟨l, hl⟩

theorem errand_of_put {i : ℕ} {e : Option Errand} {x : Errand}
    (h : (s.put id e).errands i = some x) :
    (i = id ∧ e = some x) ∨ (i ≠ id ∧ s.errands i = some x) := by
  simp only [put, Function.update_apply] at h
  split at h
  · exact .inl ⟨‹_›, h⟩
  · exact .inr ⟨‹_›, h⟩

theorem put_put (s : Estate) (id : ℕ) (e e' : Option Errand) :
    (s.put id e).put id e' = s.put id e' := by
  unfold put
  rw [Function.update_idem]

/-- An account that is no longer bare is not the one of a bare account. -/
theorem ne_of_bare_setAccount {b : AccountId} {state : Account}
    (h : (s.setAccount a state).Bare b) (hstate : ∀ l, state ≠ .locker l []) :
    b.chars ≠ a.chars := by
  intro hb
  cases AccountId.chars_injective hb
  obtain ⟨l, hl⟩ := h
  exact hstate l ((Function.update_self _ _ _).symm.trans hl)

/-! ## Errands that end -/

/-- Errands may end, keys may become managed, and ids are used up. -/
theorem Sound.mono (h : s.Sound) (haccounts : s'.accounts = s.accounts)
    (hmanaged : ∀ key, s.managed key = true → s'.managed key = true)
    (herrands : ∀ i e, s'.errands i = some e → s.errands i = some e)
    (hnext : s.nextId ≤ s'.nextId) : s'.Sound := by
  have hbare : ∀ a, s'.Bare a → s.Bare a := by
    intro a
    simp only [Bare, haccounts, imp_self]
  refine ⟨?_, ?_, ?_, ?_, ?_, ?_, ?_, ?_, ?_, ?_, ?_⟩
  · intro i e key he hk
    exact hmanaged _ (h.entry _ _ _ (herrands _ _ he) hk)
  · intro i j e e' key he he'
    exact h.single _ _ _ _ _ (herrands _ _ he) (herrands _ _ he')
  · intro a ha
    exact hmanaged _ (h.bareManaged _ (hbare a ha))
  · intro a ha i e he
    exact h.bareAlone _ (hbare a ha) _ _ (herrands _ _ he)
  · simpa only [haccounts] using h.held
  · intro i a n he
    simpa only [Bare, haccounts] using h.deleting _ _ _ (herrands _ _ he)
  · intro i a n he
    simpa only [Exporting, haccounts] using h.adding _ _ _ (herrands _ _ he)
  · intro i j a n he he'
    exact h.uncreated _ _ _ _ (herrands _ _ he) (herrands _ _ he')
  · intro i j a m n he he'
    exact h.oneKey _ _ _ _ _ (herrands _ _ he) (herrands _ _ he')
  · intro i j a m n he he'
    exact h.order _ _ _ _ _ (herrands _ _ he) (herrands _ _ he')
  · intro i a n he
    exact Nat.lt_of_lt_of_le (h.sent _ _ _ (herrands _ _ he)) hnext

theorem Sound.tick (h : s.Sound) : s.tick.Sound :=
  h.mono rfl (fun _ hk => hk) (fun _ _ he => he) (Nat.le_succ _)

theorem Sound.manage (h : s.Sound) (key : Str) : (s.setManaged key true).Sound := by
  refine h.mono rfl (fun k hk => ?_) (fun _ _ he => he) (Nat.le_refl _)
  simp only [setManaged, Function.update_apply]
  split
  · rfl
  · exact hk

theorem Sound.drop (h : s.Sound) (id : ℕ) : (s.put id none).Sound := by
  refine h.mono rfl (fun _ hk => hk) (fun i e he => ?_) (Nat.le_refl _)
  rcases errand_of_put he with ⟨-, hnone⟩ | ⟨-, he⟩
  · cases hnone
  · exact he

/-- An errand that goes on as it is. -/
theorem Sound.keep (h : s.Sound) {e : Option Errand} (he : s.errands id = e) :
    (s.put id e).Sound := by
  refine h.mono rfl (fun _ hk => hk) (fun i x hx => ?_) (Nat.le_refl _)
  rcases errand_of_put hx with ⟨rfl, rfl⟩ | ⟨-, hx⟩
  · exact he
  · exact hx

/-- The one errand that decides about an entry ends, and the entry may go. -/
theorem Sound.forget (h : s.Sound) {e : Errand} (he : s.errands id = some e)
    (hk : e.key = some key) : ((s.put id none).setManaged key false).Sound := by
  have hother : ∀ i x k, (s.put id none).errands i = some x → x.key = some k → k ≠ key := by
    rintro i x k hx hxk rfl
    rcases errand_of_put hx with ⟨-, hnone⟩ | ⟨hi, hx⟩
    · cases hnone
    · exact hi (h.single _ _ _ _ _ hx he hxk hk)
  have hmanaged : ∀ k, k ≠ key → s.managed k = true →
      ((s.put id none).setManaged key false).managed k = true := by
    intro k hk hs
    exact (Function.update_of_ne hk _ _).trans hs
  have hdrop := h.drop id
  refine ⟨?_, hdrop.single, ?_, hdrop.bareAlone, hdrop.held, hdrop.deleting, hdrop.adding,
    hdrop.uncreated, hdrop.oneKey, hdrop.order, hdrop.sent⟩
  · intro i x k hx hxk
    exact hmanaged k (hother i x k hx hxk) (hdrop.entry _ _ _ hx hxk)
  · intro a ha
    refine hmanaged _ ?_ (h.bareManaged a ha)
    rintro rfl
    exact h.bareAlone a ha _ _ he hk

/-! ## New errands -/

/-- No other errand decides about the entry of the key, and its account is not bare. -/
def Free (s : Estate) (id : ℕ) (key : Str) : Prop :=
  (∀ a, s.Bare a → a.chars ≠ key) ∧
    ∀ j e, j ≠ id → s.errands j = some e → e.key ≠ some key

/-- What is known before an errand is taken on. -/
def Admits (s : Estate) (id : ℕ) : Errand → Prop
  | .create key => s.managed key = true ∧ s.Free id key ∧
    ∀ j a n, j ≠ id → s.errands j = some (.addKey a n) → a.chars ≠ key
  | .remove key => s.managed key = true ∧ s.Free id key
  | .delete a n => s.Bare a ∧ n < s.nextId ∧
    ∀ j m, j ≠ id → s.errands j ≠ some (.addKey a m)
  | .addKey a n => s.Exporting a ∧ (∀ j m, j ≠ id → s.errands j ≠ some (.addKey a m)) ∧
    ∀ j m, j ≠ id → s.errands j = some (.delete a m) → m < n

theorem Admits.free {e : Errand} (h : s.Admits id e) (hk : e.key = some key) :
    s.managed key = true ∧ s.Free id key := by
  cases e with
  | create => cases hk; exact ⟨h.1, h.2.1⟩
  | remove => cases hk; exact h
  | _ => cases hk

theorem Sound.put (h : s.Sound) {e : Errand} (he : s.Admits id e) : (s.put id (some e)).Sound := by
  refine ⟨?_, ?_, h.bareManaged, ?_, h.held, ?_, ?_, ?_, ?_, ?_, ?_⟩
  · intro i x k hx hk
    rcases errand_of_put hx with ⟨-, ⟨⟩⟩ | ⟨-, hold⟩
    · exact (he.free hk).1
    · exact h.entry _ _ _ hold hk
  · intro i j x y k hx hy hxk hyk
    rcases errand_of_put hx with ⟨hi, ⟨⟩⟩ | ⟨hi, hold⟩
    · rcases errand_of_put hy with ⟨hj, -⟩ | ⟨hj, hold⟩
      · exact hi.trans hj.symm
      · exact absurd hyk ((he.free hxk).2.2 _ _ hj hold)
    · rcases errand_of_put hy with ⟨-, ⟨⟩⟩ | ⟨-, hold'⟩
      · exact absurd hxk ((he.free hyk).2.2 _ _ hi hold)
      · exact h.single _ _ _ _ _ hold hold' hxk hyk
  · intro a ha i x hx hk
    rcases errand_of_put hx with ⟨-, ⟨⟩⟩ | ⟨-, hold⟩
    · exact (he.free hk).2.1 a ha rfl
    · exact h.bareAlone a ha _ _ hold hk
  · intro i a n hx
    rcases errand_of_put hx with ⟨-, ⟨⟩⟩ | ⟨-, hold⟩
    · exact .inr he.1
    · exact h.deleting _ _ _ hold
  · intro i a n hx
    rcases errand_of_put hx with ⟨-, ⟨⟩⟩ | ⟨-, hold⟩
    · exact .inr he.1
    · exact h.adding _ _ _ hold
  · intro i j a n hx hy
    rcases errand_of_put hx with ⟨hi, ⟨⟩⟩ | ⟨hi, hold⟩
    -- The account of the new key is bare, so nothing is about to create it.
    · rcases errand_of_put hy with ⟨-, ⟨⟩⟩ | ⟨-, hold⟩
      exact h.bareAlone a he.1.bare _ _ hold rfl
    · rcases errand_of_put hy with ⟨-, ⟨⟩⟩ | ⟨-, hold'⟩
      · exact he.2.2 _ _ _ hi hold rfl
      · exact h.uncreated _ _ _ _ hold hold'
  · intro i j a m n hx hy
    rcases errand_of_put hx with ⟨hi, ⟨⟩⟩ | ⟨hi, hold⟩
    · rcases errand_of_put hy with ⟨hj, -⟩ | ⟨hj, hold⟩
      · exact hi.trans hj.symm
      · exact absurd hold (he.2.1 _ _ hj)
    · rcases errand_of_put hy with ⟨-, ⟨⟩⟩ | ⟨-, hold'⟩
      · exact absurd hold (he.2.1 _ _ hi)
      · exact h.oneKey _ _ _ _ _ hold hold'
  · intro i j a m n hx hy
    rcases errand_of_put hx with ⟨-, ⟨⟩⟩ | ⟨hi, hold⟩
    · rcases errand_of_put hy with ⟨-, ⟨⟩⟩ | ⟨hj, hold⟩
      exact absurd hold (he.2.2 _ _ hj)
    · rcases errand_of_put hy with ⟨-, ⟨⟩⟩ | ⟨-, hold'⟩
      · exact he.2.2 _ _ hi hold
      · exact h.order _ _ _ _ _ hold hold'
  · intro i a n hx
    rcases errand_of_put hx with ⟨-, ⟨⟩⟩ | ⟨-, hold⟩
    · exact he.2.1
    · exact h.sent _ _ _ hold

/-- A failed creation leaves the entry to its callback. -/
theorem Sound.fail (h : s.Sound) (he : s.errands id = some (.create key)) :
    (s.put id (some (.remove key))).Sound := by
  refine h.put ⟨h.entry _ _ _ he rfl, ?_, ?_⟩
  · rintro a ha rfl
    exact h.bareAlone a ha _ _ he rfl
  · intro j e hj hj' hk
    exact hj (h.single _ _ _ _ _ hj' he hk rfl)

/-- A free key is rented, and no key is on its way to its account. -/
theorem Sound.rent (h : s.Sound) (hfree : s.managed key = false)
    (hadding : ∀ i a n, s.errands i = some (.addKey a n) → a.chars ≠ key) (id : ℕ) :
    ((s.setManaged key true).put id (some (.create key))).Sound := by
  refine (h.manage key).put ⟨Function.update_self _ _ _, ⟨?_, ?_⟩, fun j a n _ => hadding j a n⟩
  · rintro a ha rfl
    rw [h.bareManaged a ha] at hfree
    cases hfree
  · intro j e _ he hk
    rw [h.entry _ _ _ he hk] at hfree
    cases hfree

/-! ## Accounts that change -/

/-- One account changes, in a way the errands under way allow. -/
theorem Sound.setAccount (h : s.Sound) {state : Account}
    (hbare : ∀ l, state = .locker l [] → s.managed a.chars = true ∧
      ∀ i e, s.errands i = some e → e.key ≠ some a.chars)
    (hheld : ∀ l keys, state = .locker l keys → l.state = .held → keys = [])
    (hdeleting : ∀ i n, s.errands i = some (.delete a n) →
      state = .absent ∨ ∃ l, state = .locker l [])
    (hadding : ∀ i n, s.errands i = some (.addKey a n) →
      state = .absent ∨ ∃ l, state = .locker l [] ∧ l.state = .exporting) :
    (s.setAccount a state).Sound := by
  have hself : (s.setAccount a state).accounts a = state := Function.update_self _ _ _
  have hne {b : AccountId} (hb : b ≠ a) : (s.setAccount a state).accounts b = s.accounts b :=
    Function.update_of_ne hb _ _
  refine ⟨h.entry, h.single, ?_, ?_, ?_, ?_, ?_, h.uncreated, h.oneKey, h.order, h.sent⟩
  · rintro b ⟨l, hl⟩
    by_cases hb : b = a
    · subst hb
      exact (hbare l (hself.symm.trans hl)).1
    · exact h.bareManaged b ⟨l, (hne hb).symm.trans hl⟩
  · rintro b ⟨l, hl⟩
    by_cases hb : b = a
    · subst hb
      exact (hbare l (hself.symm.trans hl)).2
    · exact h.bareAlone b ⟨l, (hne hb).symm.trans hl⟩
  · intro b l keys hl
    by_cases hb : b = a
    · subst hb
      exact hheld l keys (hself.symm.trans hl)
    · exact h.held b l keys ((hne hb).symm.trans hl)
  · intro i b n hx
    by_cases hb : b = a
    · subst hb
      simpa only [Bare, hself] using hdeleting i n hx
    · simpa only [Bare, hne hb] using h.deleting i b n hx
  · intro i b n hx
    by_cases hb : b = a
    · subst hb
      simpa only [Exporting, hself] using hadding i n hx
    · simpa only [Exporting, hne hb] using h.adding i b n hx

theorem Sound.leave (h : s.Sound) (a : AccountId) : (s.setAccount a .absent).Sound :=
  h.setAccount (fun _ hl => by cases hl) (fun _ _ hl => by cases hl) (fun _ _ _ => .inl rfl)
    (fun _ _ _ => .inl rfl)

/-- The account runs other code from now on. -/
theorem Sound.change (h : s.Sound)
    (hdeleting : ∀ i n, s.errands i ≠ some (.delete a n))
    (hadding : ∀ i n, s.errands i ≠ some (.addKey a n)) : (s.setAccount a .foreign).Sound :=
  h.setAccount (fun _ hl => by cases hl) (fun _ _ hl => by cases hl)
    (fun _ _ he => absurd he (hdeleting _ _)) (fun _ _ he => absurd he (hadding _ _))

/-- A locker with full-access keys changes in any way that does not hold it. -/
theorem Sound.setKeyed (h : s.Sound) {l : SubAccountLocker} {keys : List PublicKey}
    (hkeys : keys ≠ []) (hstate : l.state ≠ .held)
    (hdeleting : ∀ i n, s.errands i ≠ some (.delete a n))
    (hadding : ∀ i n, s.errands i ≠ some (.addKey a n)) :
    (s.setAccount a (.locker l keys)).Sound := by
  refine h.setAccount ?_ ?_ (fun _ _ he => absurd he (hdeleting _ _))
    (fun _ _ he => absurd he (hadding _ _))
  · rintro l' ⟨⟩
    exact absurd rfl hkeys
  · rintro l' keys' ⟨⟩ hheld
    exact absurd hheld hstate

/-- A bare account stays bare while no key is on its way to it. -/
theorem Sound.setBare (h : s.Sound) (hbare : s.Bare a) (l : SubAccountLocker)
    (hadding : ∀ i n, s.errands i ≠ some (.addKey a n)) :
    (s.setAccount a (.locker l [])).Sound := by
  refine h.setAccount (fun _ _ => ⟨h.bareManaged a hbare, h.bareAlone a hbare⟩) ?_
    (fun _ _ _ => .inr ⟨l, rfl⟩) (fun _ _ he => absurd he (hadding _ _))
  rintro l' keys ⟨⟩ -
  rfl

/-! ## What a locker does -/

/-- No key is on its way to a locker that is held. -/
theorem Sound.not_adding (h : s.Sound) {l : SubAccountLocker} {keys : List PublicKey}
    (hlocker : s.accounts a = .locker l keys) (hheld : l.state = .held) (i n : ℕ) :
    s.errands i ≠ some (.addKey a n) := by
  intro he
  rcases h.adding _ _ _ he with habsent | ⟨l', hl', hexporting⟩
  · rw [hlocker] at habsent; cases habsent
  · rw [hlocker] at hl'; cases hl'
    rw [hheld] at hexporting; cases hexporting

theorem Sound.bare_of_held (h : s.Sound) {l : SubAccountLocker} {keys : List PublicKey}
    (hlocker : s.accounts a = .locker l keys) (hheld : l.state = .held) : s.Bare a := by
  cases h.held _ _ _ hlocker hheld
  exact ⟨l, hlocker⟩

/-- The account is created. -/
theorem Sound.create (h : s.Sound) (he : s.errands id = some (.create a.chars))
    (l : SubAccountLocker) :
    ((s.put id none).setAccount a (.locker l [])).Sound := by
  refine (h.drop id).setAccount ?_ ?_ (fun _ _ _ => .inr ⟨l, rfl⟩) ?_
  · refine fun _ _ => ⟨h.entry _ _ _ he rfl, fun i e hi hk => ?_⟩
    rcases errand_of_put hi with ⟨-, ⟨⟩⟩ | ⟨hne, hi⟩
    exact hne (h.single _ _ _ _ _ hi he hk rfl)
  · rintro l' keys ⟨⟩ -
    rfl
  · intro i n hi
    rcases errand_of_put hi with ⟨-, ⟨⟩⟩ | ⟨-, hi⟩
    exact absurd he (h.uncreated _ _ _ _ hi)

/-- The account accepts that it is to be deleted. -/
theorem Sound.finalize (h : s.Sound) {l : SubAccountLocker} {keys : List PublicKey}
    (hlocker : s.accounts a = .locker l keys) (hheld : l.state = .held) (id : ℕ) :
    (s.tick.put id (some (.delete a s.nextId))).Sound :=
  h.tick.put ⟨h.bare_of_held hlocker hheld, Nat.lt_succ_self _,
    fun j m _ => h.not_adding hlocker hheld j m⟩

theorem Sound.delete (h : s.Sound) {n : ℕ} (he : s.errands id = some (.delete a n))
    (hpresent : s.accounts a ≠ .absent) :
    ((s.setAccount a .absent).put id (some (.remove a.chars))).Sound := by
  have hbare := (h.deleting _ _ _ he).resolve_left hpresent
  exact (h.leave a).put ⟨h.bareManaged a hbare, fun b hb => ne_of_bare_setAccount hb (by simp),
    fun j e _ => h.bareAlone a hbare j e⟩

/-- The account accepts that it is to be exported. -/
theorem Sound.export_ (h : s.Sound) {l l' : SubAccountLocker} {keys : List PublicKey}
    (hlocker : s.accounts a = .locker l keys) (hheld : l.state = .held)
    (hstate : l'.state = .exporting) (id : ℕ) :
    ((s.setAccount a (.locker l' keys)).tick.put id (some (.addKey a s.nextId))).Sound := by
  have hbare := h.bare_of_held hlocker hheld
  cases h.held _ _ _ hlocker hheld
  have hset := h.setBare hbare l' (h.not_adding hlocker hheld)
  refine hset.tick.put ⟨⟨l', Function.update_self _ _ _, hstate⟩,
    fun j m _ => h.not_adding hlocker hheld j m, fun j m _ he => h.sent _ _ _ he⟩

/-- The key is added. Every deletion the account sent before has been executed. -/
theorem Sound.addKey (h : s.Sound) {n : ℕ} {l : SubAccountLocker} {keys : List PublicKey}
    {key : PublicKey} (he : s.errands id = some (.addKey a n))
    (hlocker : s.accounts a = .locker l keys)
    (hdeleting : ∀ i m, s.errands i ≠ some (.delete a m)) :
    ((s.setAccount a (.locker l (key :: keys))).put id (some (.remove a.chars))).Sound := by
  obtain ⟨l', hl', hstate⟩ := (h.adding _ _ _ he).resolve_left (by rw [hlocker]; simp)
  rw [hlocker] at hl'
  cases hl'
  have hbare : s.Bare a := ⟨l, hlocker⟩
  have hset : ((s.put id none).setAccount a (.locker l [key])).Sound := by
    refine (h.drop id).setKeyed (by simp) (by rw [hstate]; simp) ?_ ?_
    · intro i m hi
      rcases errand_of_put hi with ⟨-, ⟨⟩⟩ | ⟨-, hi⟩
      exact hdeleting i m hi
    · intro i m hi
      rcases errand_of_put hi with ⟨-, ⟨⟩⟩ | ⟨hne, hi⟩
      exact hne (h.oneKey _ _ _ _ _ hi he)
  have hput : (((s.put id none).setAccount a (.locker l [key])).put id
      (some (.remove a.chars))).Sound := by
    refine hset.put ⟨h.bareManaged a hbare, fun b hb => ne_of_bare_setAccount hb (by simp), ?_⟩
    intro j e hj hj'
    rcases errand_of_put hj' with ⟨-, ⟨⟩⟩ | ⟨-, hj'⟩
    exact h.bareAlone a hbare _ _ hj'
  exact put_put (s.setAccount a (.locker l [key])) id none _ ▸ hput

/-- The locker learns that its key was added. -/
theorem Sound.resolve (h : s.Sound) {l l' : SubAccountLocker} {keys : List PublicKey}
    (he : s.errands id = some (.remove a.chars)) (hlocker : s.accounts a = .locker l keys)
    (hstate : l'.state = .exported) : (s.setAccount a (.locker l' keys)).Sound := by
  have hkeyed : ¬ s.Bare a := fun hbare => h.bareAlone a hbare _ _ he rfl
  refine h.setKeyed ?_ (by rw [hstate]; simp) ?_ ?_
  · rintro rfl
    exact hkeyed ⟨l, hlocker⟩
  · intro i n hi
    exact hkeyed ((h.deleting _ _ _ hi).resolve_left (by rw [hlocker]; simp))
  · intro i n hi
    exact hkeyed ((h.adding _ _ _ hi).resolve_left (by rw [hlocker]; simp)).bare

end Estate

end HosTla
