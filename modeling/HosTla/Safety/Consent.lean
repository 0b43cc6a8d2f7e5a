-- SUMMARY: An account changes hands only by a sale at a price that an owner of it has set, to a buyer whose deposit covers it.
import HosTla.Safety.Pauses
import HosTla.Safety.Titles

/-!
# Consent

A record of the market holds a price and says nothing of who set it. It is written by a call
of the owner, locked and unlocked with its price by buyers and callbacks, and read by a sale
that settles much later. A run traces the price of a sale back to a call of an owner.
-/

namespace HosTla

open Foundation

/-! ## Offers of owners -/

/-- The registry takes a call of the owner that offers the account at `key` for the price, to
everybody or to this buyer. -/
inductive Chain.Offers (c : Chain) (key : Str) (price : ℕ) (buyer : AccountId) : Label → Prop
  | listed {owner tlaId : AccountId} {deposit reserve : ℕ} {name : Str} {sub : SubAccountEntry}
      (hcall : (c.callOutcome owner deposit reserve
        (.listSubAccount tlaId name price)).isSome = true)
      (hkey : subAccountKey tlaId name = key) (hsub : c.registry.subAccounts.get key = some sub)
      (howner : sub.owner = owner) :
      Offers c key price buyer (.call owner deposit reserve (.listSubAccount tlaId name price))
  | accepted {owner tlaId : AccountId} {deposit reserve : ℕ} {name : Str} {sub : SubAccountEntry}
      (hcall : (c.callOutcome owner deposit reserve
        (.acceptOffer tlaId name buyer price)).isSome = true)
      (hkey : subAccountKey tlaId name = key) (hsub : c.registry.subAccounts.get key = some sub)
      (howner : sub.owner = owner) :
      Offers c key price buyer
        (.call owner deposit reserve (.acceptOffer tlaId name buyer price))

/-- An owner of the account at `key` has offered it for the price in the run. -/
def Offered (tr : List (Transition Chain Label)) (key : Str) (price : ℕ) (buyer : AccountId) :
    Prop :=
  Occurs (fun c l => c.Offers key price buyer l) tr

/-! ## Records after a call -/

section

variable {env : Env} {r : TlaRegistry} {op : Op} {o : Outcome} {key : Str}

theorem TlaRegistry.owner_of_assertSellable {tlaId owner : AccountId}
    (h : r.assertSellable env key tlaId = .ok owner) :
    ∃ sub, r.subAccounts.get key = some sub ∧ sub.owner = owner := by
  obtain ⟨_, sub, _, -, -, hsub, -, -, -, -, rfl⟩ := assertSellable_eq_ok.mp h
  exact ⟨sub, hsub, rfl⟩

/-- A listing was there with its price, or the owner has listed the account. -/
theorem Accepted.listing_arises (h : Accepted env r op o) {listing' : Listing}
    (hlisting' : o.registry.listings.get key = some listing') :
    (∃ listing, r.listings.get key = some listing ∧ listing'.price = listing.price) ∨
      ∃ tlaId name sub, op = .listSubAccount tlaId name listing'.price ∧
        subAccountKey tlaId name = key ∧ r.subAccounts.get key = some sub ∧
        sub.owner = env.predecessor := by
  have hkept (hget : r.listings.get key = some listing') :
      ∃ listing, r.listings.get key = some listing ∧ listing'.price = listing.price :=
    ⟨listing', hget, rfl⟩
  cases h with
  | listSubAccount _ _ _ _ hsell =>
    rcases LookupMap.get_of_get_insert hlisting' with ⟨rfl, rfl⟩ | ⟨-, hget⟩
    · obtain ⟨sub, hsub, howner⟩ := TlaRegistry.owner_of_assertSellable hsell
      exact .inr ⟨_, _, sub, rfl, rfl, hsub, howner⟩
    · exact .inl (hkept hget)
  | unlistSubAccount => exact .inl (hkept (LookupMap.get_of_get_remove hlisting').2)
  | buySubAccount _ _ _ hlock =>
    cases hlock with
    | offer => exact .inl (hkept hlisting')
    | listing _ hlisting =>
      rcases LookupMap.get_of_get_insert hlisting' with ⟨rfl, rfl⟩ | ⟨-, hget⟩
      · exact .inl ⟨_, hlisting, rfl⟩
      · exact .inl (hkept hget)
  | _ => exact .inl (hkept hlisting')

/-- An accepted offer was there with its terms, or the owner has accepted it. -/
theorem Accepted.offer_arises (h : Accepted env r op o) {offer' : AcceptedOffer}
    (hoffer' : o.registry.acceptedOffers.get key = some offer') :
    (∃ offer, r.acceptedOffers.get key = some offer ∧ offer'.buyer = offer.buyer ∧
      offer'.price = offer.price) ∨
      ∃ tlaId name sub, op = .acceptOffer tlaId name offer'.buyer offer'.price ∧
        subAccountKey tlaId name = key ∧ r.subAccounts.get key = some sub ∧
        sub.owner = env.predecessor := by
  have hkept (hget : r.acceptedOffers.get key = some offer') :
      ∃ offer, r.acceptedOffers.get key = some offer ∧ offer'.buyer = offer.buyer ∧
        offer'.price = offer.price :=
    ⟨offer', hget, rfl, rfl⟩
  cases h with
  | acceptOffer _ _ _ _ hsell =>
    rcases LookupMap.get_of_get_insert hoffer' with ⟨rfl, rfl⟩ | ⟨-, hget⟩
    · obtain ⟨sub, hsub, howner⟩ := TlaRegistry.owner_of_assertSellable hsell
      exact .inr ⟨_, _, sub, rfl, rfl, hsub, howner⟩
    · exact .inl (hkept hget)
  | revokeOffer => exact .inl (hkept (LookupMap.get_of_get_remove hoffer').2)
  | buySubAccount _ _ _ hlock =>
    cases hlock with
    | offer hoffer =>
      rcases LookupMap.get_of_get_insert hoffer' with ⟨rfl, rfl⟩ | ⟨-, hget⟩
      · exact .inl ⟨_, hoffer, rfl, rfl⟩
      · exact .inl (hkept hget)
    | listing => exact .inl (hkept hoffer')
  | _ => exact .inl (hkept hoffer')

end

/-! ## Consent -/

/-- What a run tells of prices: an owner has set every price there is, on record or in a
sale. -/
structure Consenting (tr : List (Transition Chain Label)) (c : Chain) : Prop where
  listings : ∀ key listing, c.registry.listings.get key = some listing →
    ∀ buyer, Offered tr key listing.price buyer
  offers : ∀ key offer, c.registry.acceptedOffers.get key = some offer →
    Offered tr key offer.price offer.buyer
  sales : ∀ id fl b, c.flights.get id = some fl → fl.selling = some b →
    Offered tr b.key b.price b.buyer

namespace Consenting

variable {tr : List (Transition Chain Label)} {c c' : Chain} {l : Label}

theorem listings_step (h : Consenting tr c) (hmove : c.Move l c') {key : Str} {listing' : Listing}
    (hlisting' : c'.registry.listings.get key = some listing') (buyer : AccountId) :
    Offered (tr ++ [⟨c, l, c'⟩]) key listing'.price buyer := by
  have hkept {listing : Listing} (hlisting : c.registry.listings.get key = some listing)
      (hprice : listing'.price = listing.price) :
      Offered (tr ++ [⟨c, l, c'⟩]) key listing'.price buyer := by
    rw [hprice]
    exact (h.listings _ _ hlisting buyer).append _
  rcases hmove.registry with
    hsame | ⟨predecessor, deposit, reserve, op, o, rfl, hcall, -, ho, hsame⟩ |
      ⟨id, ok, fl, o, rfl, hfl, ho, hsame⟩
  · exact hkept (hsame ▸ hlisting') rfl
  · rw [hsame] at hlisting'
    rcases ho.listing_arises hlisting' with
      ⟨listing, hlisting, hprice⟩ | ⟨tlaId, name, sub, rfl, hkey, hsub, howner⟩
    · exact hkept hlisting hprice
    · exact .last (.listed (Option.isSome_iff_exists.mpr ⟨_, hcall⟩) hkey hsub howner)
  · rw [hsame] at hlisting'
    obtain ⟨listing, hlisting, hprice⟩ := ho.frozen.listings _ _ hlisting'
    exact hkept hlisting hprice

theorem offers_step (h : Consenting tr c) (hmove : c.Move l c') {key : Str}
    {offer' : AcceptedOffer} (hoffer' : c'.registry.acceptedOffers.get key = some offer') :
    Offered (tr ++ [⟨c, l, c'⟩]) key offer'.price offer'.buyer := by
  have hkept {offer : AcceptedOffer} (hoffer : c.registry.acceptedOffers.get key = some offer)
      (hbuyer : offer'.buyer = offer.buyer) (hprice : offer'.price = offer.price) :
      Offered (tr ++ [⟨c, l, c'⟩]) key offer'.price offer'.buyer := by
    rw [hbuyer, hprice]
    exact (h.offers _ _ hoffer).append _
  rcases hmove.registry with
    hsame | ⟨predecessor, deposit, reserve, op, o, rfl, hcall, -, ho, hsame⟩ |
      ⟨id, ok, fl, o, rfl, hfl, ho, hsame⟩
  · exact hkept (hsame ▸ hoffer') rfl rfl
  · rw [hsame] at hoffer'
    rcases ho.offer_arises hoffer' with
      ⟨offer, hoffer, hbuyer, hprice⟩ | ⟨tlaId, name, sub, rfl, hkey, hsub, howner⟩
    · exact hkept hoffer hbuyer hprice
    · exact .last (.accepted (Option.isSome_iff_exists.mpr ⟨_, hcall⟩) hkey hsub howner)
  · rw [hsame] at hoffer'
    obtain ⟨offer, hoffer, hbuyer, hprice⟩ := ho.frozen.offers _ _ hoffer'
    exact hkept hoffer hbuyer hprice

/-- A sale takes its price from the record it locks. -/
theorem sales_step (h : Consenting tr c) (hmove : c.Move l c') {id : ℕ} {fl : Flight}
    {b : PendingBuy} (hget : c'.flights.get id = some fl) (hb : fl.selling = some b) :
    Offered (tr ++ [⟨c, l, c'⟩]) b.key b.price b.buyer := by
  suffices hold : Offered tr b.key b.price b.buyer from hold.append _
  rcases hmove.carried Flight.selling_carried hget hb with
    ⟨fl₀, hfl₀, hb⟩ | ⟨predecessor, deposit, reserve, op, o, p, -, -, hcall, -, hp, rfl⟩
  · exact h.sales _ _ _ hfl₀ hb
  · obtain ⟨-, ho⟩ := Chain.accepted_of_callOutcome hcall
    obtain ⟨-, -, -, -, -, -, hlock⟩ := ho.buy_of_selling hp hb
    generalize hprice : b.price = price at hlock
    generalize o.registry.listings = listings at hlock
    generalize o.registry.acceptedOffers = offers at hlock
    cases hlock with
    | offer hoffer hbuyer => exact hbuyer ▸ h.offers _ _ hoffer
    | listing _ hlisting => exact h.listings _ _ hlisting _

theorem of_run {g : Genesis} (hrun : Run Chain.step (.init g) tr c) : Consenting tr c := by
  induction hrun with
  | @nil =>
    -- There are no records and no sales at first.
    have hnone (id : ℕ) : (Chain.init g).flights.get id = none := rfl
    refine ⟨?_, ?_, ?_⟩
    · intro key listing hlisting
      cases hlisting
    · intro key offer hoffer
      cases hoffer
    · intro id fl b hget
      exact absurd (hnone id) (by simp [hget])
  | snoc hrun hstep ih =>
    have hmove := Chain.move_of_step hstep
    exact {
      listings := fun _ _ hlisting buyer => ih.listings_step hmove hlisting buyer
      offers := fun _ _ hoffer => ih.offers_step hmove hoffer
      sales := fun _ _ _ hget hb => ih.sales_step hmove hget hb }

end Consenting

/-- Bob has bought `n.hos` at Alice's price, and its locker has his key. -/
def Sample.transferred : List Label :=
  Sample.onSale ++ [
    Sample.call Sample.bob 5 (.buySubAccount Sample.tla Sample.name Sample.otherKey),
    .deliver 4 true]

end HosTla
