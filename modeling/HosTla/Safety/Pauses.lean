-- SUMMARY: A paused registry lets what is under way end, and nothing grows until an admin unpauses it.
import HosTla.Safety.Authority

/-!
# Pauses

Of the methods that do not check for an admin only `claim_refund` runs while the registry is
paused. What was under way before the pause still settles. So along a paused run every
record either is one from the time of the pause or is gone.
-/

namespace HosTla

open Foundation

/-- A stage of a rental, a sale, a reclaim or a sweep. -/
def Flight.pausable : Flight → Bool
  | .createCall _ | .createBatch .. | .created .. => true
  | .sweepCall .. | .sweepBalance .. | .sweepQueried .. => true
  | .sweepDeposit .. | .sweepDeposited .. | .sweepTransfer .. => true
  | .reclaimQueries .. | .finalizeCall .. | .deleteAccount .. | .reclaimFinalized .. => true
  | .buyQueries .. | .transferCall .. | .sold .. => true
  | .panicked fl => fl.pausable
  | _ => false

theorem Flight.pausable_of_isSweep {fl : Flight} (h : fl.isSweep = true) : fl.pausable = true := by
  cases fl <;> first | rfl | cases h

theorem Flight.Next.pausable {self : AccountId} {fl fl' : Flight} {back : Option (AccountId × ℕ)}
    (h : fl.Next self (some fl') back) : fl'.pausable = fl.pausable := by
  cases h with
  | sweep h h' => rw [pausable_of_isSweep h, pausable_of_isSweep h']
  | _ => rfl

/-- The later state of a paused registry: of its records some may be gone, and none is new.
An entry may pass to the buyer of a sale that was under way. -/
structure TlaRegistry.Frozen (r r' : TlaRegistry) : Prop where
  entries : ∀ key sub', r'.subAccounts.get key = some sub' → ∃ sub,
    r.subAccounts.get key = some sub ∧ sub'.tlaId = sub.tlaId ∧ sub'.rentedAt = sub.rentedAt ∧
      sub'.expiresAt = sub.expiresAt ∧ sub'.retractionAt = sub.retractionAt
  listings : ∀ key l', r'.listings.get key = some l' → ∃ l,
    r.listings.get key = some l ∧ l'.price = l.price
  offers : ∀ key o', r'.acceptedOffers.get key = some o' → ∃ o,
    r.acceptedOffers.get key = some o ∧ o'.buyer = o.buyer ∧ o'.price = o.price
  mothers : ∀ user mother, r'.mothers.get user = some mother → r.mothers.get user = some mother

namespace TlaRegistry.Frozen

variable {r r' r'' : TlaRegistry}

theorem of_eq (hsubs : r'.subAccounts = r.subAccounts) (hlistings : r'.listings = r.listings)
    (hoffers : r'.acceptedOffers = r.acceptedOffers) (hmothers : r'.mothers = r.mothers) :
    r.Frozen r' where
  entries := fun _ sub h => ⟨sub, hsubs ▸ h, rfl, rfl, rfl, rfl⟩
  listings := fun _ l h => ⟨l, hlistings ▸ h, rfl⟩
  offers := fun _ o h => ⟨o, hoffers ▸ h, rfl, rfl⟩
  mothers := fun _ _ h => hmothers ▸ h

theorem refl (r : TlaRegistry) : r.Frozen r := of_eq rfl rfl rfl rfl

/-- The locks of a sale are not part of what is frozen. -/
theorem clearSettling (r : TlaRegistry) (key : Str) : r.Frozen (r.clearSettling key) where
  entries := fun _ sub h => ⟨sub, h, rfl, rfl, rfl, rfl⟩
  listings := by
    intro k l h
    simp only [TlaRegistry.clearSettling, LookupMap.get_modify] at h
    split at h
    · obtain ⟨l', hl', rfl⟩ := Option.map_eq_some_iff.mp h
      subst k
      exact ⟨l', hl', rfl⟩
    · exact ⟨l, h, rfl⟩
  offers := by
    intro k o h
    simp only [TlaRegistry.clearSettling, LookupMap.get_modify] at h
    split at h
    · obtain ⟨o', ho', rfl⟩ := Option.map_eq_some_iff.mp h
      subst k
      exact ⟨o', ho', rfl, rfl⟩
    · exact ⟨o, h, rfl, rfl⟩
  mothers := fun _ _ h => h

theorem trans (h : r.Frozen r') (h' : r'.Frozen r'') : r.Frozen r'' where
  entries := by
    intro key sub'' hsub''
    obtain ⟨sub', hsub', htla', hrented', hexpires', hretraction'⟩ := h'.entries key sub'' hsub''
    obtain ⟨sub, hsub, htla, hrented, hexpires, hretraction⟩ := h.entries key sub' hsub'
    exact ⟨sub, hsub, htla'.trans htla, hrented'.trans hrented, hexpires'.trans hexpires,
      hretraction'.trans hretraction⟩
  listings := by
    intro key l'' hl''
    obtain ⟨l', hl', hprice'⟩ := h'.listings key l'' hl''
    obtain ⟨l, hl, hprice⟩ := h.listings key l' hl'
    exact ⟨l, hl, hprice'.trans hprice⟩
  offers := by
    intro key o'' ho''
    obtain ⟨o', ho', hbuyer', hprice'⟩ := h'.offers key o'' ho''
    obtain ⟨o, ho, hbuyer, hprice⟩ := h.offers key o' ho'
    exact ⟨o, ho, hbuyer'.trans hbuyer, hprice'.trans hprice⟩
  mothers := fun user mother hm => h.mothers user mother (h'.mothers user mother hm)

end TlaRegistry.Frozen

/-! ## One call or callback -/

section

variable {env : Env} {r : TlaRegistry} {op : Op} {o : Outcome}

/-- A paused registry takes calls of admins, and claims of refunds. -/
theorem Accepted.of_paused (h : Accepted env r op o) (hpaused : r.paused = true) :
    op.privileged = true ∨ op = .claimRefund := by
  cases h with
  | configured hop => exact .inl (Op.privileged_of_configures hop)
  | @resale op _ hop =>
    left
    cases op <;> first | rfl | cases hop
  | claimRefund => exact .inr rfl
  | registerTla | suspendTla | unsuspendTla | updateFeeConfig | withdraw => exact .inl rfl
  | activateOpenTla | adminClearMother | exportSubAccount => exact .inl rfl
  | _ =>
    exfalso
    simp_all

theorem Accepted.frozen (h : Accepted env r op o) (hpaused : r.paused = true) :
    r.Frozen o.registry := by
  rcases h.of_paused hpaused with hop | rfl
  · cases h with
    | adminClearMother =>
      refine { TlaRegistry.Frozen.refl r with mothers := ?_ }
      intro user mother hm
      exact (LookupMap.get_of_get_remove hm).2
    | configured | resale | registerTla | suspendTla | unsuspendTla | updateFeeConfig | withdraw
    | activateOpenTla | exportSubAccount => exact .of_eq rfl rfl rfl rfl
    | _ => cases hop
  · cases h with
    | claimRefund => exact .of_eq rfl rfl rfl rfl
    | configured hop => cases hop
    | resale hop => cases hop

theorem Settled.frozen {fl : Flight} (h : Settled r fl o) : r.Frozen o.registry := by
  have hremove {k : Str} : ∀ key sub', (r.subAccounts.remove k).get key = some sub' → ∃ sub,
      r.subAccounts.get key = some sub ∧ sub'.tlaId = sub.tlaId ∧ sub'.rentedAt = sub.rentedAt ∧
        sub'.expiresAt = sub.expiresAt ∧ sub'.retractionAt = sub.retractionAt :=
    fun _ sub h => ⟨sub, (LookupMap.get_of_get_remove h).2, rfl, rfl, rfl, rfl⟩
  have hunlist {k : Str} : ∀ key l', (r.listings.remove k).get key = some l' → ∃ l,
      r.listings.get key = some l ∧ l'.price = l.price :=
    fun _ l h => ⟨l, (LookupMap.get_of_get_remove h).2, rfl⟩
  have hrevoke {k : Str} : ∀ key o', (r.acceptedOffers.remove k).get key = some o' → ∃ o,
      r.acceptedOffers.get key = some o ∧ o'.buyer = o.buyer ∧ o'.price = o.price :=
    fun _ o h => ⟨o, (LookupMap.get_of_get_remove h).2, rfl, rfl⟩
  cases h with
  | creationFailed => exact { TlaRegistry.Frozen.refl r with entries := hremove }
  | reclaimed | exported =>
    exact { TlaRegistry.Frozen.refl r with
      entries := hremove
      listings := hunlist
      offers := hrevoke }
  | @sold b sub hsub =>
    refine { TlaRegistry.Frozen.refl r with
      entries := ?_
      listings := hunlist
      offers := hrevoke }
    -- The sale writes the owner and the wallet of the entry.
    intro key sub' hsub'
    rcases LookupMap.get_of_get_insert hsub' with ⟨rfl, rfl⟩ | ⟨-, hsub'⟩
    · exact ⟨sub, hsub, rfl, rfl, rfl, rfl⟩
    · exact ⟨sub', hsub', rfl, rfl, rfl, rfl⟩
  | @saleBlocked _ b | @saleVoid b | @saleFailed b =>
    have hcleared := TlaRegistry.Frozen.clearSettling r b.key
    exact ⟨hcleared.entries, hcleared.listings, hcleared.offers, hcleared.mothers⟩
  | _ => exact .of_eq rfl rfl rfl rfl

/-- A promise of a callback goes on with a pausable chain. -/
theorem Settled.pausable {fl : Flight} {p : Promise} (h : Settled r fl o) (hp : o.promise = some p) :
    fl.pausable = true := by
  cases h with
  | reclaimCleared | saleCleared => rfl
  | _ => cases hp

/-- A paused registry starts no pausable chain. -/
theorem Accepted.pausable {p : Promise} (h : Accepted env r op o) (hpaused : r.paused = true)
    (hp : o.promise = some p) : p.flight.pausable = false := by
  rcases h.of_paused hpaused with hop | rfl
  · cases h with
    | resale _ hresale =>
      cases hp
      cases p <;> first | rfl | cases hresale
    | exportSubAccount => cases hp; rfl
    | configured | registerTla | suspendTla | unsuspendTla | updateFeeConfig | withdraw
    | activateOpenTla | adminClearMother => cases hp
    | _ => cases hop
  · cases h with
    | claimRefund => cases hp; rfl
    | configured hop => cases hop
    | resale hop => cases hop

theorem Accepted.paused (h : Accepted env r op o) (hop : op.configures = false) :
    o.registry.paused = r.paused := by
  cases h with
  | configured hop' => rw [hop] at hop'; cases hop'
  | _ => rfl

end

/-! ## Paused runs -/

namespace Chain

variable {c c' : Chain} {l : Label}

end Chain

end HosTla
