-- SUMMARY: The chain with the order in which the TLAs were registered, and the views that list them.
import HosTla.Chain.InFlight
import HosTla.Foundation.Paging
import HosTla.Registry.Views

/-!
# Catalog

The registry keeps its TLAs in an iterable map. `Chain` has the map, and the order its
keys were inserted in is kept here. `register_tla` is the only method that inserts a key,
and none removes one.
-/

namespace HosTla

open Foundation

structure Catalog where
  chain : Chain
  /-- The keys of `tlas` in iteration order. -/
  order : IterableSet AccountId

/-- The TLA that a step registers. -/
def Chain.registers (c : Chain) : Label → Option AccountId
  | .call predecessor deposit reserve (.registerTla tlaId tlaType premiumCategory licensee) =>
    (c.callOutcome predecessor deposit reserve
      (.registerTla tlaId tlaType premiumCategory licensee)).map fun _ => tlaId
  | _ => none

namespace Catalog

def init (g : Genesis) : Catalog := ⟨.init g, .empty⟩

def step (q : Catalog) (l : Label) : Option Catalog :=
  (q.chain.step l).map fun chain => ⟨chain, (q.chain.registers l).elim q.order q.order.insert⟩

def Reached (g : Genesis) (q : Catalog) : Prop := Reachable step (init g) q

/-! ## Views -/

/-- The cast to a `usize`, which has 32 bits. -/
def asUsize (n : ℕ) : ℕ := n % 2 ^ 32

def listTlas (q : Catalog) (fromIndex limit : ℕ) : List TlaView :=
  (page q.order.elems (asUsize fromIndex) (asUsize limit)).filterMap
    (q.chain.registry.getTla q.chain.now)

def getStats (q : Catalog) : RegistryStats where
  tlaCount := q.order.len
  subAccountCount := q.chain.registry.subAccountCount
  totalRevenueYocto := q.chain.registry.totalRevenue
  totalPendingRefundsYocto := q.chain.registry.totalPendingRefunds

end Catalog

/-! ## The order and the map -/

/-- A call registers the TLA that `register_tla` names, and no other. -/
theorem Chain.tlas_of_accepted {c : Chain} {predecessor : AccountId} {deposit reserve : ℕ} {op : Op}
    {o : Outcome} (hcall : c.callOutcome predecessor deposit reserve op = some o) (tlaId : AccountId) :
    (o.registry.tlas.get tlaId).isSome = true ↔
      (c.registry.tlas.get tlaId).isSome = true ∨
        c.registers (.call predecessor deposit reserve op) = some tlaId := by
  have hold {k : AccountId} {tla tla' : TlaEntry} (htla : c.registry.tlas.get k = some tla) :
      ((c.registry.tlas.insert k tla').get tlaId).isSome = true ↔
        (c.registry.tlas.get tlaId).isSome = true ∨ none = some tlaId := by
    rw [LookupMap.get_insert]
    split
    · rename_i heq
      simp [heq, htla]
    · simp
  have hnot : (none : Option AccountId) ≠ some tlaId :=
    (Option.some_ne_none tlaId).symm
  have ho := (accepted_of_callOutcome hcall).2
  cases ho with
  | registerTla =>
    simp only [registers, hcall, Outcome.of, LookupMap.get_insert, Option.map_some, Option.some.injEq]
    split
    · rename_i heq
      simp [heq]
    · rename_i hne
      simp [Ne.symm hne]
  | suspendTla _ htla => exact hold htla
  | unsuspendTla _ htla => exact hold htla
  | activateOpenTla _ htla => exact hold htla
  | activateTla _ _ _ htla => exact hold htla
  | renewTla _ _ htla => exact hold htla
  | configured hop => cases op <;> cases hop <;> exact (or_iff_left hnot).symm
  | resale hop => cases op <;> cases hop <;> exact (or_iff_left hnot).symm
  | _ => exact (or_iff_left hnot).symm

theorem Chain.tlas_of_step {c c' : Chain} {l : Label} (hstep : c.step l = some c')
    (tlaId : AccountId) :
    (c'.registry.tlas.get tlaId).isSome = true ↔
      (c.registry.tlas.get tlaId).isSome = true ∨ c.registers l = some tlaId := by
  cases l with
  | call predecessor deposit reserve op =>
    cases move_of_step hstep with
    | rejected hcall =>
      have hnone : c.registers (.call predecessor deposit reserve op) = none := by
        cases op with
        | registerTla => simp only [registers, hcall, Option.map_none]
        | _ => rfl
      simp [hnone]
    | accepted hcall => exact tlas_of_accepted hcall tlaId
  | _ =>
    have hkept : c'.registry.tlas = c.registry.tlas := by
      rcases (move_of_step hstep).registry with
        heq | ⟨_, _, _, _, _, hl, -⟩ | ⟨_, _, _, _, -, -, ho, heq⟩
      · rw [heq]
      · cases hl
      · rw [heq, ho.tlas]
    rw [hkept]
    exact (or_iff_left (Option.some_ne_none tlaId).symm).symm

namespace Catalog

variable {g : Genesis} {q q' : Catalog} {l : Label} {tr : List (Transition Catalog Label)}

theorem step_chain (hstep : q.step l = some q') : q.chain.step l = some q'.chain := by
  obtain ⟨chain, hchain, rfl⟩ := Option.map_eq_some_iff.mp hstep
  exact hchain

/-- The order has the keys of the map. -/
def Indexed (q : Catalog) : Prop :=
  ∀ tlaId, tlaId ∈ q.order ↔ (q.chain.registry.tlas.get tlaId).isSome = true

theorem Indexed.step (h : q.Indexed) (hstep : q.step l = some q') : q'.Indexed := by
  intro tlaId
  rw [Chain.tlas_of_step (step_chain hstep) tlaId, ← h tlaId]
  obtain ⟨chain, -, rfl⟩ := Option.map_eq_some_iff.mp hstep
  cases q.chain.registers l with
  | none => exact (or_iff_left (Option.some_ne_none tlaId).symm).symm
  | some new =>
    simp only [Option.elim_some, IterableSet.mem_insert, Option.some.injEq]
    exact or_comm.trans (or_congr_right eq_comm)

theorem Reached.indexed (h : q.Reached g) : q.Indexed := by
  refine h.invariant ?_ fun _ _ _ hI hstep => hI.step hstep
  intro tlaId
  simp [init, Chain.init, TlaRegistry.new]

theorem order_of_step (hstep : q.step l = some q') : q.order.elems <+: q'.order.elems := by
  obtain ⟨chain, -, rfl⟩ := Option.map_eq_some_iff.mp hstep
  cases q.chain.registers l with
  | none => exact List.prefix_rfl
  | some new =>
    simp only [Option.elim_some, IterableSet.insert]
    split
    · exact List.prefix_rfl
    · exact List.prefix_append _ _

/-- The order grows at its end only. -/
theorem order_of_run (hrun : Run step q tr q') : q.order.elems <+: q'.order.elems := by
  induction hrun with
  | nil => exact List.prefix_rfl
  | snoc _ hstep ih => exact ih.trans (order_of_step hstep)

end Catalog

end HosTla
