import Eaves.Answer.Layer
import Eaves.Proofs.Pixels.Offsets
import Eaves.Proofs.Zone.Ranges

/-!
# Designs within bounds

What a design holds comes from outside, a stored document or a caller's own terms,
and the arithmetic on it is that of machine numbers.  A design within bounds lists
no more plain ranges than a list can hold, and no choice of its flags spreads a
greater number of lights than the bound.
-/

namespace Eaves

/-- A value in a slot for data that is harmless: where it is taken for a zone, the zone is
listed, and where it is a rule, the rule spreads fewer lights than the bound. -/
structure Value.IsWithin (most : Int) (value : Value) : Prop where
  zones : ∀ zone, value.zone? = some zone → zone.IsListed
  rules : ∀ rule, value = .spacing rule → rule.SpreadsBelow most

/-- A flag all of whose choices are within a bound. -/
def Ambiguity.IsWithin (most : Int) (flag : Ambiguity) : Prop :=
  ∀ choice ∈ flag.choices, choice.value.IsWithin most

/-- A value with nothing inside it: a term, or a single piece of data. -/
def Value.IsFlat : Value → Prop
  | .list _ | .object _ | .date _ => False
  | _ => True

/-- Nothing behind the choices of a flag has anything inside it. -/
def Ambiguity.IsFlat (flag : Ambiguity) : Prop :=
  ∀ choice ∈ flag.choices, choice.value.IsFlat

/-- A design whose zones are listed and whose flags are within a bound. -/
structure Intent.IsWithin (most : Int) (intent : Intent) : Prop where
  zones : ∀ layer ∈ intent.layers, layer.zone.IsListed
  flags : ∀ flag ∈ intent.ambiguities, flag.IsWithin most

variable {most more : Int}

theorem Ambiguity.IsWithin.mono {flag : Ambiguity} (le : most ≤ more)
    (within : flag.IsWithin most) : flag.IsWithin more := by
  intro choice mem
  constructor
  · exact (within choice mem).zones
  · intro rule isRule
    exact ((within choice mem).rules rule isRule).mono le

theorem Intent.IsWithin.mono {intent : Intent} (le : most ≤ more)
    (within : intent.IsWithin most) : intent.IsWithin more :=
  ⟨within.zones, fun flag mem => (within.flags flag mem).mono le⟩

/-! ## Values that are within bounds -/

namespace Value

/-- A rule is no zone. -/
theorem isWithin_spacing {rule : Spacing} (below : rule.SpreadsBelow most) :
    (Value.spacing rule).IsWithin most := by
  constructor
  · rintro zone ⟨⟩
  · rintro other ⟨⟩
    exact below

theorem isWithin_zone {zone : Zone} (listed : zone.IsListed) :
    (Value.zone zone).IsWithin most := by
  constructor
  · rintro other ⟨⟩
    exact listed
  · rintro rule ⟨⟩

/-- What is neither an object nor a zone is read as no zone. -/
theorem isWithin_of_zone? {value : Value} (noZone : value.zone? = none)
    (noRule : ∀ rule, value ≠ .spacing rule) : value.IsWithin most := by
  constructor
  · intro zone isZone
    rw [noZone] at isZone
    cases isZone
  · intro rule isRule
    exact absurd isRule (noRule rule)

end Value

/-! ## Offers -/

namespace Offer

/-- The zones that ids stand for have no plain ranges. -/
theorem isListed_of_zoneOfId? {id : String} {zone : Zone} (isZone : zoneOfId? id = some zone) :
    zone.IsListed := by
  unfold zoneOfId? at isZone
  split at isZone
  · cases isZone
    trivial
  · split at isZone
    · cases isZone
      trivial
    · split at isZone <;> cases isZone <;> trivial

/-- Where an option's value is taken for a zone only if the zone is listed, so is the option. -/
theorem isListed_of_zone? {offer : Offer} {zone : Zone}
    (listed : ∀ own, offer.value.zone? = some own → own.IsListed)
    (isZone : offer.zone? = some zone) : zone.IsListed := by
  unfold Offer.zone? at isZone
  rcases Option.or_eq_some_iff.mp isZone with own | ⟨-, byId⟩
  · exact listed zone own
  · exact isListed_of_zoneOfId? byId

end Offer

end Eaves
