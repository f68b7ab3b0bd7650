import LatentFactors.Decimal.Fixed
import LatentFactors.Decimal.Shortest

/-!
# Numbers with a power of ten

`scientific places x` writes `x` with one digit before the point, `places`
digits after it and a power of ten.  The decimal is the one nearest to the
exact value, and a tie goes to the even last digit.  Zero is written without
a sign.
-/

namespace LatentFactors.Decimal

/-- The digits of `num / den` with `places` of them after the first one, and
the power of ten of the first one.  A fraction that rounds up to the next
power of ten has one digit too many at first. -/
def significantDigits (places num den : Nat) : Nat × Int :=
  let leading := leadingPower num den
  let scale := places - leading
  let rounded := roundQuotient (num * tenTo scale.toNat) (den * tenTo (-scale).toNat)
  if rounded == tenTo (places + 1) then (tenTo places, leading + 1) else (rounded, leading)

/-- Writes a number with `places` digits after the point and a power of ten. -/
def scientific (places : Nat) (x : Float) : String :=
  match Reading.ofFloat x with
  | .undefined => "nan"
  | .infinite negative => if negative then "-inf" else "inf"
  | .finite b =>
    if b.magnitude == 0 then placePoint places 0 ++ "e" ++ exponentText 0
    else
      let (rounded, leading) := significantDigits places b.numerator b.denominator
      (if b.negative then "-" else "") ++ placePoint places rounded ++ "e" ++ exponentText leading

end LatentFactors.Decimal
