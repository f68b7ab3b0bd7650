import LatentFactors.Decimal.Binary

/-!
# Numbers with a fixed count of decimal places

`fixed places x` writes `x` with `places` digits after the point.  The
decimal is the one nearest to the exact value, and a tie goes to the even
last digit.  A number below zero keeps its sign even when every digit is
zero.
-/

namespace LatentFactors.Decimal

/-- The digits of `scaled`, with a point before the last `places` of them. -/
def placePoint (places scaled : Nat) : String :=
  let whole := digits (scaled / tenTo places)
  let part := digits (scaled % tenTo places)
  if places == 0 then String.ofList whole
  else String.ofList (whole ++ '.' :: (List.replicate (places - part.length) '0' ++ part))

/-- Writes a number with `places` digits after the point. -/
def fixed (places : Nat) (x : Float) : String :=
  match Reading.ofFloat x with
  | .undefined => "nan"
  | .infinite negative => if negative then "-inf" else "inf"
  | .finite b =>
    let scaled := roundQuotient (b.numerator * tenTo places) b.denominator
    (if b.negative then "-" else "") ++ placePoint places scaled

end LatentFactors.Decimal
