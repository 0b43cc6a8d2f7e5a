-- SUMMARY: Finite maps with a total lookup function and a finite key set, and sums over their entries.
import Mathlib.Algebra.BigOperators.Group.Finset.Basic
import Mathlib.Algebra.Order.BigOperators.Group.Finset
import Mathlib.Algebra.Ring.Nat

/-!
# Lookup maps

A finite map is its lookup function together with the finite set of keys that
are present. The key set is determined by the lookups, so two maps with the
same lookups are equal, and a sum over the entries is a `Finset` sum.
-/

namespace Foundation

structure LookupMap (κ ν : Type) where
  get : κ → Option ν
  keys : Finset κ
  mem_keys : ∀ k, k ∈ keys ↔ (get k).isSome

namespace LookupMap

variable {κ ν : Type}

/-- Maps with the same lookups are the same map. -/
@[ext]
theorem ext {m m' : LookupMap κ ν} (h : ∀ k, m.get k = m'.get k) : m = m' := by
  have hget : m.get = m'.get := funext h
  have hkeys : m.keys = m'.keys := by
    ext k
    rw [m.mem_keys, m'.mem_keys, hget]
  cases m; cases m'
  cases hget; cases hkeys
  rfl

def empty : LookupMap κ ν where
  get _ := none
  keys := ∅
  mem_keys := by simp

instance : Inhabited (LookupMap κ ν) := ⟨empty⟩

@[simp] theorem get_empty (k : κ) : (empty : LookupMap κ ν).get k = none := rfl

def containsKey (m : LookupMap κ ν) (k : κ) : Bool := (m.get k).isSome

@[simp] theorem containsKey_eq_true {m : LookupMap κ ν} {k : κ} :
    m.containsKey k = true ↔ ∃ v, m.get k = some v := by
  simp [containsKey, Option.isSome_iff_exists]

@[simp] theorem containsKey_eq_false {m : LookupMap κ ν} {k : κ} :
    m.containsKey k = false ↔ m.get k = none := by
  simp [containsKey]

variable [DecidableEq κ]

def insert (m : LookupMap κ ν) (k : κ) (v : ν) : LookupMap κ ν where
  get k' := if k' = k then some v else m.get k'
  keys := Insert.insert k m.keys
  mem_keys k' := by by_cases h : k' = k <;> simp [h, m.mem_keys]

def remove (m : LookupMap κ ν) (k : κ) : LookupMap κ ν where
  get k' := if k' = k then none else m.get k'
  keys := m.keys.erase k
  mem_keys k' := by by_cases h : k' = k <;> simp [h, m.mem_keys]

/-- Update the value at a key that is present; an absent key stays absent. -/
def modify (m : LookupMap κ ν) (k : κ) (f : ν → ν) : LookupMap κ ν :=
  match m.get k with
  | some v => m.insert k (f v)
  | none => m

theorem get_insert (m : LookupMap κ ν) (k k' : κ) (v : ν) :
    (m.insert k v).get k' = if k' = k then some v else m.get k' := rfl

@[simp] theorem get_insert_self (m : LookupMap κ ν) (k : κ) (v : ν) :
    (m.insert k v).get k = some v := by simp [get_insert]

@[simp] theorem get_insert_ne {m : LookupMap κ ν} {k k' : κ} {v : ν} (h : k' ≠ k) :
    (m.insert k v).get k' = m.get k' := by simp [get_insert, h]

theorem get_remove (m : LookupMap κ ν) (k k' : κ) :
    (m.remove k).get k' = if k' = k then none else m.get k' := rfl

@[simp] theorem get_remove_self (m : LookupMap κ ν) (k : κ) : (m.remove k).get k = none := by
  simp [get_remove]

@[simp] theorem get_remove_ne {m : LookupMap κ ν} {k k' : κ} (h : k' ≠ k) :
    (m.remove k).get k' = m.get k' := by simp [get_remove, h]

theorem get_modify (m : LookupMap κ ν) (k k' : κ) (f : ν → ν) :
    (m.modify k f).get k' = if k' = k then (m.get k').map f else m.get k' := by
  unfold modify
  cases h : m.get k with
  | none => by_cases hk : k' = k <;> simp [hk, h]
  | some v => by_cases hk : k' = k <;> simp [hk, h]

@[simp] theorem get_modify_self (m : LookupMap κ ν) (k : κ) (f : ν → ν) :
    (m.modify k f).get k = (m.get k).map f := by simp [get_modify]

@[simp] theorem get_modify_ne {m : LookupMap κ ν} {k k' : κ} {f : ν → ν} (h : k' ≠ k) :
    (m.modify k f).get k' = m.get k' := by simp [get_modify, h]

/-- An entry of a map with one key removed is an entry of the map. -/
theorem get_of_get_remove {m : LookupMap κ ν} {k k' : κ} {v : ν}
    (h : (m.remove k).get k' = some v) : k' ≠ k ∧ m.get k' = some v := by
  rw [get_remove] at h
  split at h
  · cases h
  · exact ⟨‹_›, h⟩

/-- An entry of a map after an insertion is the new one or an old one elsewhere. -/
theorem get_of_get_insert {m : LookupMap κ ν} {k k' : κ} {v v' : ν}
    (h : (m.insert k v).get k' = some v') :
    (k' = k ∧ v' = v) ∨ (k' ≠ k ∧ m.get k' = some v') := by
  rw [get_insert] at h
  split at h
  · cases h; exact .inl ⟨‹_›, rfl⟩
  · exact .inr ⟨‹_›, h⟩

/-! ## Taking an update back -/

theorem remove_insert {m : LookupMap κ ν} {k : κ} (h : m.get k = none) (v : ν) :
    (m.insert k v).remove k = m := by
  ext1 k'
  rw [get_remove]
  split
  · subst k'; exact h.symm
  · exact get_insert_ne ‹_›

theorem insert_insert {m : LookupMap κ ν} {k : κ} {v : ν} (h : m.get k = some v) (v' : ν) :
    (m.insert k v').insert k v = m := by
  ext1 k'
  rw [get_insert]
  split
  · subst k'; exact h.symm
  · exact get_insert_ne ‹_›

/-- An insertion overwrites the one before it. -/
theorem insert_overwrite (m : LookupMap κ ν) (k : κ) (v v' : ν) :
    (m.insert k v).insert k v' = m.insert k v' := by
  ext1 k'
  simp only [get_insert]
  split
  · rfl
  · rfl

theorem remove_overwrite (m : LookupMap κ ν) (k : κ) (v : ν) :
    (m.insert k v).remove k = m.remove k := by
  ext1 k'
  simp only [get_remove, get_insert]
  split
  · rfl
  · rfl

theorem modify_eq_self {m : LookupMap κ ν} {k : κ} {f : ν → ν}
    (h : ∀ v, m.get k = some v → f v = v) : m.modify k f = m := by
  ext1 k'
  rw [get_modify]
  split
  · subst k'
    cases hget : m.get k with
    | none => rfl
    | some v => exact congrArg some (h v hget)
  · rfl

theorem modify_insert {m : LookupMap κ ν} {k : κ} {v v' : ν} {f : ν → ν}
    (h : m.get k = some v) (hf : f v' = v) : (m.insert k v').modify k f = m := by
  ext1 k'
  rw [get_modify]
  split
  · subst k'
    rw [get_insert_self, Option.map_some, hf]
    exact h.symm
  · exact get_insert_ne ‹_›

/-! ## Mapping the values -/

section

variable {ν' : Type} {f : ν → ν'}

omit [DecidableEq κ] in
/-- What a reader sees of a map who reads `f` off each entry. -/
def mapValues (f : ν → ν') (m : LookupMap κ ν) : LookupMap κ ν' where
  get k := (m.get k).map f
  keys := m.keys
  mem_keys k := by simp [m.mem_keys]

omit [DecidableEq κ] in
@[simp] theorem get_mapValues (m : LookupMap κ ν) (k : κ) :
    (m.mapValues f).get k = (m.get k).map f := rfl

omit [DecidableEq κ] in
@[simp] theorem mapValues_empty : (empty : LookupMap κ ν).mapValues f = empty := by
  ext1 k
  rfl

@[simp] theorem mapValues_insert (m : LookupMap κ ν) (k : κ) (v : ν) :
    (m.insert k v).mapValues f = (m.mapValues f).insert k (f v) := by
  ext1 k'
  simp only [get_mapValues, get_insert]
  split <;> rfl

@[simp] theorem mapValues_remove (m : LookupMap κ ν) (k : κ) :
    (m.remove k).mapValues f = (m.mapValues f).remove k := by
  ext1 k'
  simp only [get_mapValues, get_remove]
  split <;> rfl

/-- An update that `f` does not see. -/
theorem mapValues_modify {g : ν → ν} (h : ∀ v, f (g v) = f v) (m : LookupMap κ ν) (k : κ) :
    (m.modify k g).mapValues f = m.mapValues f := by
  ext1 k'
  simp only [get_mapValues, get_modify]
  split
  · subst k'
    cases m.get k <;> simp [h]
  · rfl

theorem mapValues_insert_of_get {m : LookupMap κ ν} {k : κ} {v v' : ν} (h : m.get k = some v)
    (hf : f v' = f v) : (m.insert k v').mapValues f = m.mapValues f := by
  rw [mapValues_insert, hf]
  ext1 k'
  rw [get_insert]
  split
  · subst k'
    rw [get_mapValues, h, Option.map_some]
  · rfl

/-- An update of an entry that is there, and what a reader sees of it. -/
theorem mapValues_update {m : LookupMap κ ν} {k : κ} {v v' : ν} {g : ν' → ν'}
    (h : m.get k = some v) (hf : f v' = g (f v)) :
    (m.insert k v').mapValues f = (m.mapValues f).modify k g := by
  have hget : (m.mapValues f).get k = some (f v) := by rw [get_mapValues, h, Option.map_some]
  rw [mapValues_insert, hf]
  ext1 k'
  rw [get_insert, get_modify]
  split
  · subst k'
    rw [hget, Option.map_some]
  · rfl

end

/-! ## Sums over the entries -/

/-- The weight of the entry at one key, zero where the key is absent. -/
def weight (m : LookupMap κ ν) (f : κ → ν → ℕ) (k : κ) : ℕ := (m.get k).elim 0 (f k)

omit [DecidableEq κ] in
@[simp] theorem weight_some {m : LookupMap κ ν} {f : κ → ν → ℕ} {k : κ} {v : ν}
    (h : m.get k = some v) : m.weight f k = f k v := by simp [weight, h]

omit [DecidableEq κ] in
@[simp] theorem weight_none {m : LookupMap κ ν} {f : κ → ν → ℕ} {k : κ}
    (h : m.get k = none) : m.weight f k = 0 := by simp [weight, h]

/-- The sum of `f` over all entries of the map. -/
def sum (m : LookupMap κ ν) (f : κ → ν → ℕ) : ℕ := ∑ k ∈ m.keys, m.weight f k

omit [DecidableEq κ] in
@[simp] theorem sum_empty (f : κ → ν → ℕ) : (empty : LookupMap κ ν).sum f = 0 := by
  simp [sum, empty]

omit [DecidableEq κ] in
theorem weight_eq_zero_of_not_mem {m : LookupMap κ ν} {f : κ → ν → ℕ} {k : κ}
    (h : k ∉ m.keys) : m.weight f k = 0 := by
  apply weight_none
  have := (m.mem_keys k).not.mp h
  simpa using this

/-- Splitting the entry at `k` off the sum. -/
theorem sum_eq_weight_add (m : LookupMap κ ν) (f : κ → ν → ℕ) (k : κ) :
    m.sum f = m.weight f k + ∑ k' ∈ m.keys.erase k, m.weight f k' := by
  by_cases hk : k ∈ m.keys
  · exact (Finset.add_sum_erase _ _ hk).symm
  · rw [weight_eq_zero_of_not_mem hk, Finset.erase_eq_of_notMem hk, sum, Nat.zero_add]

omit [DecidableEq κ] in
theorem weight_le_sum (m : LookupMap κ ν) (f : κ → ν → ℕ) (k : κ) : m.weight f k ≤ m.sum f := by
  classical
  rw [sum_eq_weight_add m f k]
  exact Nat.le_add_right _ _

omit [DecidableEq κ] in
theorem le_sum {m : LookupMap κ ν} {f : κ → ν → ℕ} {k : κ} {v : ν} (h : m.get k = some v) :
    f k v ≤ m.sum f := by
  have := weight_le_sum m f k
  rwa [weight_some h] at this

omit [DecidableEq κ] in
/-- The weight of an entry is at most that of the entry under a larger `f`. -/
theorem sum_le_sum {m : LookupMap κ ν} {f g : κ → ν → ℕ}
    (h : ∀ k v, m.get k = some v → f k v ≤ g k v) : m.sum f ≤ m.sum g := by
  apply Finset.sum_le_sum
  intro k hk
  obtain ⟨v, hv⟩ := Option.isSome_iff_exists.mp ((m.mem_keys k).mp hk)
  simpa [hv] using h k v hv

omit [DecidableEq κ] in
/-- Keys that are absent add nothing to the sum. -/
theorem sum_eq_sum_of_subset {m : LookupMap κ ν} {f : κ → ν → ℕ} {keys : Finset κ}
    (h : m.keys ⊆ keys) : m.sum f = ∑ k ∈ keys, m.weight f k :=
  Finset.sum_subset h fun _ _ hk => weight_eq_zero_of_not_mem hk

omit [DecidableEq κ] in
/-- Sums whose weights agree away from one key. -/
theorem sum_add_weight {m m' : LookupMap κ ν} {f f' : κ → ν → ℕ} {k : κ}
    (h : ∀ k', k' ≠ k → m'.weight f' k' = m.weight f k') :
    m'.sum f' + m.weight f k = m.sum f + m'.weight f' k := by
  classical
  -- Both sums run over the keys of either map, and `k` splits off from both.
  let keys := Insert.insert k (m.keys ∪ m'.keys)
  have hk : k ∈ keys := Finset.mem_insert_self _ _
  have hm : m.keys ⊆ keys := fun _ h => by simp [keys, h]
  have hm' : m'.keys ⊆ keys := fun _ h => by simp [keys, h]
  have hrest : ∑ k' ∈ keys.erase k, m'.weight f' k' = ∑ k' ∈ keys.erase k, m.weight f k' :=
    Finset.sum_congr rfl fun k' hk' => h k' (Finset.ne_of_mem_erase hk')
  rw [sum_eq_sum_of_subset hm, sum_eq_sum_of_subset hm', ← Finset.add_sum_erase _ _ hk,
    ← Finset.add_sum_erase _ _ hk, hrest]
  omega

omit [DecidableEq κ] in
theorem sum_congr_weight {m m' : LookupMap κ ν} {f f' : κ → ν → ℕ}
    (h : ∀ k, m'.weight f' k = m.weight f k) : m'.sum f' = m.sum f := by
  classical
  have hm : m.keys ⊆ m.keys ∪ m'.keys := Finset.subset_union_left
  have hm' : m'.keys ⊆ m.keys ∪ m'.keys := Finset.subset_union_right
  rw [sum_eq_sum_of_subset hm, sum_eq_sum_of_subset hm']
  exact Finset.sum_congr rfl fun k _ => h k

/-- Inserting at `k` replaces the weight of the old entry by that of the new one. -/
theorem sum_insert (m : LookupMap κ ν) (f : κ → ν → ℕ) (k : κ) (v : ν) :
    (m.insert k v).sum f + m.weight f k = m.sum f + f k v := by
  rw [← weight_some (f := f) (get_insert_self m k v)]
  refine sum_add_weight fun k' hk' => ?_
  simp only [weight, get_insert_ne hk']

/-- Removing `k` takes the weight of its entry away. -/
theorem sum_remove (m : LookupMap κ ν) (f : κ → ν → ℕ) (k : κ) :
    (m.remove k).sum f + m.weight f k = m.sum f := by
  have hgone : (m.remove k).weight f k = 0 := weight_none (get_remove_self m k)
  have hsum : (m.remove k).sum f + m.weight f k = m.sum f + (m.remove k).weight f k :=
    sum_add_weight fun k' hk' => by simp only [weight, get_remove_ne hk']
  omega

/-- The sum along a list of keys that misses no weight. -/
theorem sum_eq_sum_map {m : LookupMap κ ν} {f : κ → ν → ℕ} {ks : List κ} (hnodup : ks.Nodup)
    (hrest : ∀ k, k ∉ ks → m.weight f k = 0) : m.sum f = (ks.map (m.weight f)).sum := by
  have hkeys : m.sum f = ∑ k ∈ m.keys ∪ ks.toFinset, m.weight f k :=
    sum_eq_sum_of_subset Finset.subset_union_left
  have hlist : ∑ k ∈ ks.toFinset, m.weight f k = ∑ k ∈ m.keys ∪ ks.toFinset, m.weight f k :=
    Finset.sum_subset Finset.subset_union_right fun k _ hk =>
      hrest k fun hmem => hk (List.mem_toFinset.mpr hmem)
  rw [hkeys, ← hlist, List.sum_toFinset _ hnodup]

/-! ## Counting entries -/

section

variable {m m' : LookupMap κ ν} {P P' : κ → ν → Prop} [∀ k v, Decidable (P k v)]
  [∀ k v, Decidable (P' k v)]

/-- The number of entries that have the property. -/
def count (m : LookupMap κ ν) (P : κ → ν → Prop) [∀ k v, Decidable (P k v)] : ℕ :=
  m.sum fun k v => if P k v then 1 else 0

omit [DecidableEq κ] in
theorem weight_ite (m : LookupMap κ ν) (k : κ) :
    m.weight (fun k v => if P k v then 1 else 0) k = if ∃ v ∈ m.get k, P k v then 1 else 0 := by
  cases h : m.get k with
  | none => simp [h]
  | some v => simp [h]

omit [DecidableEq κ] in
theorem weight_ite_congr {k : κ} (h : (∃ v ∈ m'.get k, P' k v) ↔ ∃ v ∈ m.get k, P k v) :
    m'.weight (fun k v => if P' k v then 1 else 0) k =
      m.weight (fun k v => if P k v then 1 else 0) k := by
  rw [weight_ite, weight_ite]
  simp only [h]

omit [DecidableEq κ] in
theorem count_congr (h : ∀ k, (∃ v ∈ m'.get k, P' k v) ↔ ∃ v ∈ m.get k, P k v) :
    m'.count P' = m.count P :=
  sum_congr_weight fun k => weight_ite_congr (h k)

omit [DecidableEq κ] in
/-- One entry more is counted. -/
theorem count_eq_succ {k : κ}
    (h : ∀ k', k' ≠ k → ((∃ v ∈ m'.get k', P' k' v) ↔ ∃ v ∈ m.get k', P k' v))
    (hnot : ¬ ∃ v ∈ m.get k, P k v) (hnow : ∃ v ∈ m'.get k, P' k v) :
    m'.count P' = m.count P + 1 := by
  classical
  have hsum : m'.count P' + m.weight (fun k v => if P k v then 1 else 0) k =
      m.count P + m'.weight (fun k v => if P' k v then 1 else 0) k :=
    sum_add_weight fun k' hk' => weight_ite_congr (h k' hk')
  rwa [weight_ite, weight_ite, if_neg hnot, if_pos hnow] at hsum

end

end LookupMap

end Foundation
