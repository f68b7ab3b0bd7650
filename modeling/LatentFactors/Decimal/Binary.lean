/-!
# Exact values of floating-point numbers

A finite floating-point number is a whole number times a power of two.
`Reading.ofFloat` takes a number apart, and everything that prints or
truncates a number works on the parts in exact arithmetic.

* `Binary` is the exact value, `Binary.numerator` and `Binary.denominator`
  write its magnitude as a fraction.
* `Binary.truncate` is the whole part, `roundQuotient` rounds a fraction.
-/

namespace LatentFactors.Decimal

/-- A power of two. -/
def twoTo (n : Nat) : Nat := Nat.pow 2 n

/-- A power of ten. -/
def tenTo (n : Nat) : Nat := Nat.pow 10 n

/-- A finite binary number: `magnitude * 2 ^ exponent`, below zero when
`negative`. -/
structure Binary where
  negative : Bool
  magnitude : Nat
  exponent : Int
  deriving DecidableEq, Repr

/-- What the bits of a floating-point number stand for. -/
inductive Reading where
  | finite (value : Binary)
  | infinite (negative : Bool)
  | undefined
  deriving DecidableEq, Repr

/-- Takes the sign, the biased exponent and the fraction out of the bits.  A
zero exponent field marks the numbers without a hidden leading bit. -/
def Reading.ofFloat (x : Float) : Reading :=
  let bits := x.toBits.toNat
  let negative := bits / twoTo 63 == 1
  let field : Nat := bits / twoTo 52 % 2048
  let fraction := bits % twoTo 52
  if field == 2047 then
    if fraction == 0 then .infinite negative else .undefined
  else if field == 0 then .finite ⟨negative, fraction, -1074⟩
  else .finite ⟨negative, twoTo 52 + fraction, (field : Int) - 1075⟩

namespace Binary

/-- The numerator of the magnitude as a fraction. -/
def numerator (b : Binary) : Nat := b.magnitude * twoTo b.exponent.toNat

/-- The denominator of the magnitude as a fraction. -/
def denominator (b : Binary) : Nat := twoTo (-b.exponent).toNat

/-- The denominator is a power of two, so it is never zero. -/
theorem denominator_pos (b : Binary) : 0 < b.denominator :=
  Nat.pow_pos (by decide)

/-- The whole part, rounded toward zero. -/
def truncate (b : Binary) : Int :=
  let whole : Int := b.numerator / b.denominator
  if b.negative then -whole else whole

end Binary

/-- The whole number nearest to `num / den`; of two equally near ones the even
one. -/
def roundQuotient (num den : Nat) : Nat :=
  let quotient := num / den
  let twice := 2 * (num % den)
  if twice < den then quotient
  else if den < twice then quotient + 1
  else quotient + quotient % 2

/-- The digits of a whole number in base ten. -/
def digits (n : Nat) : List Char := Nat.toDigits 10 n

end LatentFactors.Decimal
