import LatentFactors.Decimal.Binary

/-!
# The shortest decimal that reads back

Every decimal inside the rounding interval of a floating-point number reads
back as that number.  `shortestDigits` looks for the coarsest decimal grid
with a point in the interval and takes the grid point nearest to the number.
`shortest` writes the digits: positionally when the leading digit stands
between the fourth place after the point and the sixteenth before it, with an
exponent of at least two digits otherwise, and always with a point or an
exponent.
-/

namespace LatentFactors.Decimal

/-- The power of ten of the leading digit of `num / den`, for a fraction above
zero. -/
def leadingPower (num den : Nat) : Int :=
  let guess : Int := (digits num).length - (digits den).length
  if den * tenTo guess.toNat ≤ num * tenTo (-guess).toNat then guess else guess - 1

/-- The numbers that round to `b`, as three fractions over one denominator:
the lower end, the value and the upper end.  Below a power of two the
neighbours are twice as dense, except among the smallest numbers. -/
def roundingInterval (b : Binary) : Nat × Nat × Nat × Nat :=
  let below := if b.magnitude == twoTo 52 && b.exponent > -1074 then 1 else 2
  let shift := b.exponent - 2
  let scale := twoTo shift.toNat
  ((4 * b.magnitude - below) * scale, 4 * b.magnitude * scale,
    (4 * b.magnitude + 2) * scale, twoTo (-shift).toNat)

/-- The point of the grid with step `10 ^ power` nearest to `b`, if a
neighbour of `b` on that grid rounds to `b`.  The ends of the interval count
when the magnitude is even, and a tie goes to the even point. -/
def gridPoint? (b : Binary) (power : Int) : Option Nat :=
  let (low, value, high, den) := roundingInterval b
  let step := den * tenTo power.toNat
  let unit := tenTo (-power).toNat
  let floor := value * unit / step
  let inside (c : Nat) : Bool :=
    if b.magnitude % 2 == 0 then low * unit ≤ c * step && c * step ≤ high * unit
    else low * unit < c * step && c * step < high * unit
  let nearest := roundQuotient (value * unit) step
  let other := if nearest == floor then floor + 1 else floor
  if inside nearest then some nearest
  else if inside other then some other
  else none

/-- The digits and the power of ten of the last digit of the shortest decimal
that reads back as `b`; `fuel` counts the digits still to be tried. -/
def shortestFrom (b : Binary) (leading : Int) : Nat → Nat → Nat × Int
  | 0, _ => (b.numerator, 0)
  | fuel + 1, count =>
    let power := leading - count + 1
    match gridPoint? b power with
    | some c => (c, power)
    | none => shortestFrom b leading fuel (count + 1)

/-- The shortest decimal that reads back as `b`; seventeen digits always do. -/
def shortestDigits (b : Binary) : Nat × Int :=
  shortestFrom b (leadingPower b.numerator b.denominator) 17 1

/-- Writes an exponent with its sign and at least two digits. -/
def exponentText (e : Int) : String :=
  let text := digits e.natAbs
  let padded := if text.length < 2 then '0' :: text else text
  (if e < 0 then "-" else "+") ++ String.ofList padded

/-- Lays out digits, the first of which stands for `10 ^ leading`. -/
def layOut (text : List Char) (leading : Int) : String :=
  if leading < -4 || leading ≥ 16 then
    let tail := text.drop 1
    let point := if tail.isEmpty then [] else '.' :: tail
    String.ofList (text.take 1 ++ point) ++ "e" ++ exponentText leading
  else if leading < 0 then
    String.ofList ('0' :: '.' :: (List.replicate (-leading - 1).toNat '0' ++ text))
  else
    let width := leading.toNat + 1
    let whole := text.take width ++ List.replicate (width - text.length) '0'
    let tail := text.drop width
    String.ofList (whole ++ '.' :: (if tail.isEmpty then ['0'] else tail))

/-- Writes a number with the fewest digits that read back as the same number. -/
def shortest (x : Float) : String :=
  match Reading.ofFloat x with
  | .undefined => "nan"
  | .infinite negative => if negative then "-inf" else "inf"
  | .finite b =>
    let sign := if b.negative then "-" else ""
    if b.magnitude == 0 then sign ++ "0.0"
    else
      let (c, power) := shortestDigits b
      let text := digits c
      let leading := power + text.length - 1
      let trimmed := (text.reverse.dropWhile (· == '0')).reverse
      sign ++ layOut trimmed leading

end LatentFactors.Decimal
