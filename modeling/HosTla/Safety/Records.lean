-- SUMMARY: When every listing and every accepted offer belongs to the current owner of the entry.
import HosTla.Custody.Refinement
import HosTla.Market.Refinement

/-!
# Sale records

A record does not store who placed it. Reclaim, export and sale purge the records of
the entry they end. A creation that fails ends its entry and purges nothing, and the
owner may have placed records before. Those are the steps that break the rule, and
the only ones.
-/

namespace HosTla

open Foundation

/-- `placed` is the owner of the entry there is, in the rental the entry comes from. -/
def System.PlacedByOwner (s : System) (key : Str) (placed : Option Tenancy) : Prop :=
  ∃ sub rental, s.chain.registry.subAccounts.get key = some sub ∧
    s.history.rentals key = some rental ∧ placed = some ⟨sub.owner, some rental⟩

/-- Every listing and every accepted offer has an entry, whose owner placed it in the
same rental. -/
def System.RecordsOwned (s : System) : Prop :=
  ∀ key,
    (∀ listing, s.chain.registry.listings.get key = some listing →
      s.PlacedByOwner key (s.history.listed key)) ∧
    ∀ offer, s.chain.registry.acceptedOffers.get key = some offer →
      s.PlacedByOwner key (s.history.offered key)

/-- A creation that has failed is settled only if its key has no records. -/
def System.KeepsRecords (s : System) : Label → Prop
  | .deliver id _ =>
    match s.chain.flights.get id with
    | some (.created p false) =>
      s.chain.registry.listings.get p.key = none ∧
        s.chain.registry.acceptedOffers.get p.key = none
    | _ => True
  | _ => True

instance (s : System) (l : Label) : Decidable (s.KeepsRecords l) := by
  delta System.KeepsRecords
  rcases l with _ | ⟨id, _⟩ | _
  · infer_instance
  · dsimp only
    rcases s.chain.flights.get id with _ | (_ | _) <;>
      first | infer_instance | (rename_i ok; rcases ok with _ | _ <;> infer_instance)
  all_goals infer_instance

namespace System

variable {s s' : System} {l : Label}

/-- The owner of an entry is the tenancy of its lot. -/
theorem placedByOwner_iff {g : Genesis} (hs : s.Reached g) {key : Str} {placed : Option Tenancy} :
    s.PlacedByOwner key placed ↔
      (s.market.lot key).tenancy ≠ none ∧ placed = (s.market.lot key).tenancy := by
  cases hsub : s.chain.registry.subAccounts.get key with
  | none => simp [PlacedByOwner, market, TlaRegistry.lot, hsub]
  | some sub =>
    obtain ⟨rental, hrental⟩ := hs.rental hsub
    simp [PlacedByOwner, market, TlaRegistry.lot, hsub, hrental]

theorem recordsOwned_iff {g : Genesis} (hs : s.Reached g) : s.RecordsOwned ↔ s.market.Owned := by
  constructor
  · intro h key x hx
    rcases hx with hx | hx
    · obtain ⟨listing, hlisting, rfl⟩ := Option.map_eq_some_iff.mp hx
      exact (placedByOwner_iff hs).mp ((h key).1 listing hlisting)
    · obtain ⟨offer, hoffer, rfl⟩ := Option.map_eq_some_iff.mp hx
      exact (placedByOwner_iff hs).mp ((h key).2 offer hoffer)
  · intro h key
    refine ⟨fun listing hlisting => ?_, fun offer hoffer => ?_⟩
    · have hrecord : (s.market.lot key).HasRecord ⟨s.history.listed key, listing.settling⟩ :=
        .inl (by simp [market, TlaRegistry.lot, hlisting])
      exact (placedByOwner_iff hs).mpr (h key _ hrecord)
    · have hrecord : (s.market.lot key).HasRecord ⟨s.history.offered key, offer.settling⟩ :=
        .inr (by simp [market, TlaRegistry.lot, hoffer])
      exact (placedByOwner_iff hs).mpr (h key _ hrecord)

theorem no_record_iff {key : Str} :
    (∀ x, ¬ (s.market.lot key).HasRecord x) ↔
      s.chain.registry.listings.get key = none ∧ s.chain.registry.acceptedOffers.get key = none := by
  constructor
  · intro h
    refine ⟨?_, ?_⟩
    · cases hlisting : s.chain.registry.listings.get key with
      | none => rfl
      | some listing =>
        exact absurd (.inl (by simp [market, TlaRegistry.lot, hlisting]))
          (h ⟨s.history.listed key, listing.settling⟩)
    · cases hoffer : s.chain.registry.acceptedOffers.get key with
      | none => rfl
      | some offer =>
        exact absurd (.inr (by simp [market, TlaRegistry.lot, hoffer]))
          (h ⟨s.history.offered key, offer.settling⟩)
  · rintro ⟨hlisting, hoffer⟩ x (hx | hx)
    · simp [market, TlaRegistry.lot, hlisting] at hx
    · simp [market, TlaRegistry.lot, hoffer] at hx

/-- Only the failed creation ends a tenancy without a purge. -/
theorem keepsOwned_of_ne {m : Market Str Tenancy} {r : TlaRegistry} {id : ℕ} {o : Outcome}
    {fl : Flight} (h : ∀ p, fl ≠ .created p false) : m.KeepsOwned (fl.marketEvent r id o) := by
  cases fl with
  | created p ok =>
    cases ok with
    | true => trivial
    | false => exact absurd rfl (h p)
  | reclaimFinalized p ok => cases ok <;> trivial
  | exportSettled tlaId name ok =>
    cases ok with
    | true => simp only [Flight.marketEvent]; split <;> trivial
    | false => trivial
  | buyQueries => simp only [Flight.marketEvent]; split <;> trivial
  | sold b ok => cases ok <;> trivial
  | _ => trivial

theorem keepsRecords_iff (s : System) (l : Label) :
    s.market.KeepsOwned (s.marketEvent l) ↔ s.KeepsRecords l := by
  cases l with
  | call predecessor deposit reserve op =>
    refine iff_of_true ?_ trivial
    simp only [marketEvent]
    cases s.chain.callOutcome predecessor deposit reserve op with
    | none => trivial
    | some o => cases op <;> trivial
  | deliver id ok =>
    by_cases hcreated : ∃ p, s.chain.flights.get id = some (.created p false)
    · obtain ⟨p, hfl⟩ := hcreated
      have hevent : s.marketEvent (.deliver id ok) = .work p.key .release := by
        simp [marketEvent, Chain.callbackOutcome, hfl, Flight.callback,
          TlaRegistry.onSubAccountCreated, Flight.marketEvent, pure, Except.pure, Except.toOption]
      rw [hevent, KeepsRecords, hfl]
      exact no_record_iff
    · refine iff_of_true ?_ ?_
      · simp only [marketEvent]
        cases s.chain.callbackOutcome id with
        | none => trivial
        | some o =>
          cases hfl : s.chain.flights.get id with
          | none => trivial
          | some fl =>
            refine keepsOwned_of_ne ?_
            rintro p rfl
            exact hcreated ⟨p, hfl⟩
      · simp only [KeepsRecords]
        split
        · rename_i p hfl
          exact absurd ⟨p, hfl⟩ hcreated
        · trivial
  | _ => exact iff_of_true trivial trivial

end System

/-- The records belong to the owners after every step of a run exactly if no step of the
run settles a failed creation whose key has records. -/
theorem records_owned_iff {g : Genesis} {tr : List (Transition System Label)} {s : System}
    (hrun : Run System.step (System.init g) tr s) :
    (∀ t ∈ tr, t.after.RecordsOwned) ↔ Meets System.KeepsRecords tr := by
  -- One step keeps the ownership exactly when its event of the market does.
  refine hrun.exact ?_ ?_
  · intro key
    refine ⟨?_, ?_⟩
    · rintro listing ⟨⟩
    · rintro offer ⟨⟩
  · intro s l s' hs howned hstep
    obtain ⟨hallowed, hmarket⟩ := System.market_step (System.Reached.chain hs).freshIds hstep
    rw [System.recordsOwned_iff hs] at howned
    rw [System.recordsOwned_iff (hs.snoc hstep), hmarket, Market.owned_apply_iff howned hallowed]
    exact System.keepsRecords_iff s l

/-! ## A listing that outlives its rental -/

namespace Sample

/-- Alice lists `n.hos` while its creation is in flight. The creation fails. -/
def listedEarly : List Label :=
  opening ++ [rent alice, call alice 1 (.listSubAccount tla name 5), .deliver 2 false,
    .deliver 2 true]

/-- Bob rents the name next. -/
def rentedListed : List Label := listedEarly ++ [rent bob]

end Sample

/-- Bob's entry is on sale under the listing of Alice. -/
theorem listing_outlives_rental :
    ∃ s : System, s.Reached Sample.genesis ∧
      (s.chain.registry.subAccounts.get Sample.sub.chars).map SubAccountEntry.owner =
        some Sample.bob ∧
      ¬ s.RecordsOwned := by
  refine ⟨Sample.historyAfter Sample.rentedListed (by decide +kernel),
    Sample.history_reached _ _, by decide +kernel, ?_⟩
  intro howned
  have hlisting : ((Sample.historyAfter Sample.rentedListed
      (by decide +kernel)).chain.registry.listings.get Sample.sub.chars).isSome = true := by
    decide +kernel
  obtain ⟨listing, hlisting⟩ := Option.isSome_iff_exists.mp hlisting
  obtain ⟨sub, rental, hsub, -, hplaced⟩ := (howned Sample.sub.chars).1 listing hlisting
  have howner : (((Sample.historyAfter Sample.rentedListed
      (by decide +kernel)).chain.registry.subAccounts.get Sample.sub.chars).map
        SubAccountEntry.owner) = some Sample.bob := by decide +kernel
  have hlisted : ((Sample.historyAfter Sample.rentedListed
      (by decide +kernel)).history.listed Sample.sub.chars).map Tenancy.owner =
        some Sample.alice := by decide +kernel
  rw [hplaced] at hlisted
  rw [hsub] at howner
  have hsame : some Sample.alice = some Sample.bob := hlisted.symm.trans howner
  exact absurd hsame (by decide)

/-- Alice takes her listing back before the creation fails, and Bob lists what he rents next. -/
def Sample.relisted : List Label :=
  opening ++ [rent alice, call alice 1 (.listSubAccount tla name 5),
    call alice 1 (.unlistSubAccount tla name), .deliver 2 false, .deliver 2 true, rent bob,
    call bob 1 (.listSubAccount tla name 7)]

/-- The listing there is at the end is Bob's, and so is the entry. -/
theorem records_owned_iff_relisted :
    ∃ tr s, Run System.step (System.init Sample.genesis) tr s ∧
      tr.map Transition.label = Sample.relisted ∧
      (s.chain.registry.listings.get Sample.sub.chars).isSome = true ∧
      ((∀ t ∈ tr, t.after.RecordsOwned) ↔ Meets System.KeepsRecords tr) ∧
      Meets System.KeepsRecords tr := by
  obtain ⟨tr, hrun, hlabels, hkeeps⟩ := Sample.exists_history_run_meets System.KeepsRecords
    Sample.relisted (by decide +kernel) (by decide +kernel)
  exact ⟨tr, _, hrun, hlabels, by decide +kernel, records_owned_iff hrun, hkeeps⟩

end HosTla
