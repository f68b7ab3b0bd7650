import LatentFactors.Scalar

/-!
# Numbers as they were written

Ratings, rates and fractions come in as integers or as numbers with a point.
The learners compute with the value only; messages show the number in the
form in which it came.
-/

namespace LatentFactors

/-- A number that keeps the form in which it was written. -/
inductive Numeral (α : Type) where
  | integer (n : Int)
  | real (x : α)
  deriving DecidableEq, Repr

namespace Numeral

variable {α : Type} [Scalar α]

/-- The nearest value to compute with. -/
def value : Numeral α → α
  | integer n => Scalar.ofInt n
  | real x => x

/-- The value to compute with, unless the number is out of range. -/
def value? : Numeral α → Option α
  | integer n => if Scalar.inRange α n then some (Scalar.ofInt n) else none
  | real x => some x

/-- The part before the point. -/
def truncate : Numeral α → Except NoWholePart Int
  | integer n => .ok n
  | real x => Scalar.truncate x

/-- Whether `n` is exactly this number. -/
def isExactly (y : Numeral α) (n : Int) : Bool :=
  match y with
  | integer m => m == n
  | real x => Scalar.equals x (Scalar.ofInt n)

/-- Whether this number is below `n`. -/
def isBelow (y : Numeral α) (n : Int) : Bool :=
  match y with
  | integer m => m < n
  | real x => Scalar.less x (Scalar.ofInt n)

/-- Whether this number is above `n`. -/
def isAbove (y : Numeral α) (n : Int) : Bool :=
  match y with
  | integer m => n < m
  | real x => Scalar.less (Scalar.ofInt n) x

/-- Whether this number is below `n` or equal to it. -/
def isAtMost (y : Numeral α) (n : Int) : Bool :=
  match y with
  | integer m => m ≤ n
  | real x => Scalar.atMost x (Scalar.ofInt n)

/-- Writes an integer with its digits and another number as it is spelled. -/
def text : Numeral α → String
  | integer n => toString n
  | real x => Scalar.spell x

end Numeral

end LatentFactors
