import LatentFactors.Decimal.Shortest
import LatentFactors.Decimal.Spelling

/-!
# The numbers that the learners compute with

`Scalar` lists the operations that learning and prediction need.  Everything
from vectors to experiments is written for any `Scalar`, so that the same
definitions run on floating-point numbers and can be reasoned about over an
ordered field.  Comparisons give a `Bool`, because floating-point comparisons
are not total orders.

The functions below the class are those that follow from the operations:
absolute value, the larger of two numbers, sums and running sums.
-/

namespace LatentFactors

/-- Why a number has no whole part. -/
inductive NoWholePart where
  | undefined
  | infinite
  deriving DecidableEq, Repr

/-- The arithmetic of the learners. -/
class Scalar (α : Type) extends Zero α, One α, Neg α, Add α, Sub α, Mul α, Div α where
  /-- Whether the first number is below the second. -/
  less : α → α → Bool
  /-- Whether the first number is below or equal to the second. -/
  atMost : α → α → Bool
  /-- Whether two numbers compare as equal. -/
  equals : α → α → Bool
  /-- The result of an undefined operation. -/
  undefined : α
  /-- Whether a number is the result of an undefined operation. -/
  isUndefined : α → Bool
  /-- The number nearest to an integer. -/
  ofInt : Int → α
  /-- Whether an integer lies within the range of the numbers. -/
  inRange : Int → Bool
  /-- `decimal m p` is the number nearest to `m / 10 ^ p`. -/
  decimal : Nat → Nat → α
  /-- The part of a number before the point. -/
  truncate : α → Except NoWholePart Int
  /-- The exponential function. -/
  exp : α → α
  /-- The natural logarithm. -/
  log : α → α
  /-- The logistic function, with values between zero and one. -/
  expit : α → α
  /-- The square root. -/
  sqrt : α → α
  /-- How a number is written. -/
  spell : α → String
  /-- The number that a text spells, if it spells one. -/
  read : String → Option α

namespace Scalar

variable {α : Type} [Scalar α]

/-- Whether a number is nonzero.  An undefined number is. -/
def nonzero (x : α) : Bool := !equals x 0

/-- The absolute value. -/
def abs (x : α) : α := if less x 0 then -x else x

/-- The larger of two numbers; undefined if one of them is. -/
def larger (x y : α) : α :=
  if isUndefined x then x else if isUndefined y then y else if less x y then y else x

/-- The sum of a list, from the left. -/
def total (xs : List α) : α := xs.foldl (· + ·) 0

/-- The mean of a list.  The mean of nothing divides zero by zero. -/
def mean (xs : List α) : α := total xs / ofInt xs.length

/-- The running sums that start from `acc`. -/
def runningFrom (acc : α) : List α → List α
  | [] => []
  | x :: xs => (acc + x) :: runningFrom (acc + x) xs

/-- The running sums of a list. -/
def running : List α → List α
  | [] => []
  | x :: xs => x :: runningFrom x xs

end Scalar

/-- Floating-point arithmetic. -/
instance : Scalar Float where
  less x y := x < y
  atMost x y := x ≤ y
  equals x y := x == y
  undefined := 0 / 0
  isUndefined x := x.isNaN
  ofInt := Float.ofInt
  inRange n := (Float.ofInt n).isFinite
  decimal m p := Float.ofScientific m true p
  truncate x := match Decimal.Reading.ofFloat x with
    | .finite b => .ok b.truncate
    | .infinite _ => .error .infinite
    | .undefined => .error .undefined
  exp := Float.exp
  log := Float.log
  expit x := 1 / (1 + Float.exp (-x))
  sqrt := Float.sqrt
  spell := Decimal.shortest
  read := Decimal.readReal

end LatentFactors
