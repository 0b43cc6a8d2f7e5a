-- SUMMARY: Whoever reads the list of TLAs page by page, while TLAs are registered, misses none and reads none twice.
import HosTla.Chain.Catalog
import HosTla.Safety.Entries

/-!
# Pages

`list_tlas` gives out one page, and the registry goes on before the next is read. The TLAs
stand in the order of their registration and stay, so that a reader who stops at the first
page that is not full has the TLAs of that moment.
-/

namespace HosTla

open Foundation

namespace Catalog

variable {g : Genesis} {q q' : Catalog} {tr : List (Transition Catalog Label)}

/-- A reader of the TLAs with a fixed size of the pages. -/
abbrev Scans (q : Catalog) (limit : ℕ) (views : List TlaView) (q' : Catalog) : Prop :=
  Scan step (fun q offset => q.listTlas offset limit) limit q 0 views q'

theorem asUsize_of_lt {n : ℕ} (h : n < 2 ^ 32) : asUsize n = n := Nat.mod_eq_of_lt h

/-- A view for every key, in the order of the keys. -/
theorem map_tlaId_listTlas (hindexed : q.Indexed) {fromIndex limit : ℕ}
    (hfrom : fromIndex < 2 ^ 32) (hlimit : limit < 2 ^ 32) :
    (q.listTlas fromIndex limit).map TlaView.tlaId = page q.order.elems fromIndex limit := by
  unfold listTlas
  rw [asUsize_of_lt hfrom, asUsize_of_lt hlimit, List.map_filterMap]
  refine (List.filterMap_congr (g := some) fun tlaId hmem => ?_).trans List.filterMap_some
  have hregistered : tlaId ∈ q.order := List.mem_of_mem_drop (List.mem_of_mem_take hmem)
  obtain ⟨tla, htla⟩ := Option.isSome_iff_exists.mp ((hindexed tlaId).mp hregistered)
  simp [TlaRegistry.getTla, htla, toTlaView]

/-- A view shows the entry that the map has for its key. -/
theorem exists_of_mem_listTlas {fromIndex limit : ℕ} {v : TlaView}
    (hv : v ∈ q.listTlas fromIndex limit) :
    ∃ tla, q.chain.registry.tlas.get v.tlaId = some tla ∧
      v = toTlaView v.tlaId tla q.chain.registry.feeConfig q.chain.now := by
  obtain ⟨tlaId, -, hview⟩ := List.mem_filterMap.mp hv
  obtain ⟨tla, htla, rfl⟩ := Option.map_eq_some_iff.mp hview
  exact ⟨tla, htla, rfl⟩

theorem chain_of_run (hrun : Run step q tr q') : ∃ tr', Run Chain.step q.chain tr' q'.chain :=
  ⟨_, hrun.map (f := chain) fun _ _ _ => step_chain⟩

theorem Reached.chain (h : q.Reached g) : q.chain.Reached g :=
  Reachable.map (f := Catalog.chain) (fun _ _ _ => step_chain) h

end Catalog

/-- A reader of the pages of `list_tlas` that stops at the first page that is not full has
read every TLA that is registered at that time exactly once, whatever was registered or
changed between the pages. What a TLA never changes is in the views as it is in the end. -/
theorem pages_exact {g : Genesis} {q q' : Catalog} (h : q.Reached g) {limit : ℕ}
    (hpos : 0 < limit) (hlimit : limit < 2 ^ 32) {views : List TlaView}
    (hscan : q.Scans limit views q') (hcount : q'.getStats.tlaCount < 2 ^ 32) :
    (views.map TlaView.tlaId).Nodup ∧ views.length = q'.getStats.tlaCount ∧
      (∀ tlaId, tlaId ∈ views.map TlaView.tlaId ↔
        (q'.chain.registry.tlas.get tlaId).isSome = true) ∧
      ∀ v ∈ views, ∃ tla, q'.chain.registry.tlas.get v.tlaId = some tla ∧
        v.tlaType = tla.tlaType ∧ v.premiumCategory = tla.premiumCategory ∧
        v.licensee = tla.licensee ∧ v.expiresAt ≤ tla.expiresAt := by
  have hkeys : views.map TlaView.tlaId = q'.order.elems := by
    refine Scan.exact (fun q => q.order.elems) hpos
      (fun _ _ _ hrun => Catalog.order_of_run hrun) hscan ?_ (Nat.zero_le _)
    intro q₁ tr₁ tr₂ offset hrun₁ hrun₂ hoffset
    refine Catalog.map_tlaId_listTlas (Catalog.Reached.indexed (h.run hrun₁)) ?_ hlimit
    have hle := (Catalog.order_of_run hrun₂).length_le
    exact (hoffset.trans hle).trans_lt hcount
  obtain ⟨tr, hrun⟩ := hscan.run
  refine ⟨?_, ?_, fun tlaId => ?_, fun v hv => ?_⟩
  · rw [hkeys]
    exact q'.order.nodup
  · rw [← List.length_map, hkeys]
    rfl
  · rw [hkeys]
    exact Catalog.Reached.indexed (h.run hrun) tlaId
  · obtain ⟨q₁, offset, tr₁, tr₂, hrun₁, hrun₂, hread⟩ := hscan.read_of_mem hv
    obtain ⟨tla₁, htla₁, hview⟩ := Catalog.exists_of_mem_listTlas hread
    have hq₁ : q₁.chain.Reached g := Catalog.Reached.chain (h.run hrun₁)
    obtain ⟨_, hrun₂'⟩ := Catalog.chain_of_run hrun₂
    obtain ⟨tla, htla, hlater⟩ := hq₁.later_of_run hrun₂' htla₁
    have hterms := hlater.terms
    simp only [TlaEntry.terms, Prod.mk.injEq] at hterms
    obtain ⟨htype, hcategory, hlicensee⟩ := hterms
    refine ⟨tla, htla, ?_⟩
    rw [hview]
    exact ⟨htype.symm, hcategory.symm, hlicensee.symm, hlater.expiresAt⟩

/-- A reader that is left alone comes to an end. -/
theorem Catalog.exists_scans {g : Genesis} {q : Catalog} (h : q.Reached g) {limit : ℕ}
    (hpos : 0 < limit) (hlimit : limit < 2 ^ 32) (hcount : q.order.len < 2 ^ 32) :
    ∃ views, q.Scans limit views q :=
  Scan.exists_of_read (fun q => q.order.elems) hpos
    (fun _ hoffset => map_tlaId_listTlas (Reached.indexed h) (hoffset.trans_lt hcount) hlimit)
    (Nat.zero_le _)

/-! ## A TLA that is registered between two pages -/

namespace Sample

/-- One TLA is registered. -/
def catalog : Catalog :=
  (exec Catalog.step (Catalog.init genesis) opening).get (by decide +kernel)

theorem catalog_reached : catalog.Reached genesis :=
  reachable_of_exec (Option.some_get _).symm

/-- Bob's account becomes a TLA as well. -/
def registering : Label := call admin 0 (.registerTla bob .open_ .standard none)

end Sample

/-- Pages of one TLA: a second one is registered after the first page, and is read. -/
theorem pages_exact_growing :
    ∃ q' views, Sample.catalog.step Sample.registering = some q' ∧
      Sample.catalog.Scans 1 views q' ∧ views.length = 2 ∧ (views.map TlaView.tlaId).Nodup := by
  have hnext : (Sample.catalog.step Sample.registering).any (fun q' =>
      (Sample.catalog.listTlas 0 1).length = 1 ∧ (q'.listTlas 1 1).length = 1 ∧
        (q'.listTlas 2 1).length = 0 ∧ q'.getStats.tlaCount = 2) = true := by decide +kernel
  obtain ⟨q', hstep, hpages⟩ := (Option.any_eq_true _ _).mp hnext
  obtain ⟨hfirst, hsecond, hthird, hcount⟩ := of_decide_eq_true hpages
  have hscan : Sample.catalog.Scans 1 _ q' :=
    .next hfirst (Run.nil.snoc hstep) (.next hsecond .nil (.last (hthird.trans_lt Nat.one_pos)))
  obtain ⟨hnodup, hlength, -, -⟩ := pages_exact Sample.catalog_reached Nat.one_pos (by decide) hscan
    (by rw [hcount]; decide)
  exact ⟨q', _, hstep, hscan, hlength.trans hcount, hnodup⟩

end HosTla
