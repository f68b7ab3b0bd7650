import LatentFactors.Proofs.Arithmetic.Order

/-!
# Undefined numbers

An undefined number stands for an estimate or a score that is missing.  What is
made of it elsewhere rests on three laws, `UndefinedLaws`: the result of an
undefined operation is undefined, and an undefined number is not below any number
and not above any.  Floating-point numbers have the laws.

Exact numbers are all defined, so they have no place for what is missing.
`OrUndefined K` adds one undefined number to an exact arithmetic.  Every operation
on it is undefined, and so are division by zero and the roots of negative numbers.
-/

namespace LatentFactors

/-- Undefined numbers are below nothing and above nothing. -/
class UndefinedLaws (α : Type) [Scalar α] : Prop where
  isUndefined_undefined : Scalar.isUndefined (Scalar.undefined : α) = true
  less_of_left {x : α} (hx : Scalar.isUndefined x = true) (y : α) : Scalar.less x y = false
  less_of_right {y : α} (hy : Scalar.isUndefined y = true) (x : α) : Scalar.less x y = false

namespace FloatOrder

open Float.Model (UnpackedFloat)

theorem compare_of_isNaN_left {x : UnpackedFloat} (hx : x.isNaN = true) (y : UnpackedFloat) :
    x.compare y = none := by
  cases x with
  | notANumber => rfl
  | zero | infinity | finite => cases hx

theorem compare_of_isNaN_right {y : UnpackedFloat} (hy : y.isNaN = true) (x : UnpackedFloat) :
    x.compare y = none := by
  cases y with
  | notANumber => cases x <;> rfl
  | zero | infinity | finite => cases hy

end FloatOrder

instance : UndefinedLaws Float where
  isUndefined_undefined := by decide
  less_of_left hx y := by
    rw [FloatOrder.less_eq_compare, FloatOrder.compare_of_isNaN_left hx]
    rfl
  less_of_right hy x := by
    rw [FloatOrder.less_eq_compare, FloatOrder.compare_of_isNaN_right hy]
    rfl

/-! ## Exact numbers and an undefined one -/

/-- A number, or the result of an undefined operation. -/
inductive OrUndefined (K : Type) where
  | undefined
  | number (x : K)
  deriving DecidableEq

namespace OrUndefined

variable {K : Type}

/-- Applies a function to a number. -/
def map (f : K → K) : OrUndefined K → OrUndefined K
  | undefined => undefined
  | number x => number (f x)

/-- Applies an operation to two numbers. -/
def map₂ (f : K → K → K) : OrUndefined K → OrUndefined K → OrUndefined K
  | number x, number y => number (f x y)
  | _, _ => undefined

/-- Compares two numbers. -/
def compare (p : K → K → Bool) : OrUndefined K → OrUndefined K → Bool
  | number x, number y => p x y
  | _, _ => false

variable [ExactScalar K]

/-- The quotient, unless the divisor is zero. -/
def quotient : OrUndefined K → OrUndefined K → OrUndefined K
  | number x, number y => if Scalar.equals y 0 then undefined else number (x / y)
  | _, _ => undefined

/-- The square root, unless the number is negative. -/
def root : OrUndefined K → OrUndefined K
  | number x => if Scalar.less x 0 then undefined else number (Scalar.sqrt x)
  | undefined => undefined

/-- The logarithm of a positive number. -/
def logarithm : OrUndefined K → OrUndefined K
  | number x => if Scalar.atMost x 0 then undefined else number (Scalar.log x)
  | undefined => undefined

/-- Exact arithmetic with one undefined number. -/
instance : Scalar (OrUndefined K) where
  zero := number 0
  one := number 1
  neg := map (-·)
  add := map₂ (· + ·)
  sub := map₂ (· - ·)
  mul := map₂ (· * ·)
  div := quotient
  less := compare Scalar.less
  atMost := compare Scalar.atMost
  equals := compare Scalar.equals
  undefined := undefined
  isUndefined
    | undefined => true
    | number _ => false
  ofInt n := number (Scalar.ofInt n)
  inRange n := Scalar.inRange K n
  decimal m p := number (Scalar.decimal m p)
  truncate
    | undefined => .error .undefined
    | number x => Scalar.truncate x
  exp := map Scalar.exp
  log := logarithm
  expit := map Scalar.expit
  sqrt := root
  spell
    | undefined => "nan"
    | number x => Scalar.spell x
  read s := (Scalar.read s).map number

instance : UndefinedLaws (OrUndefined K) where
  isUndefined_undefined := rfl
  less_of_left {x} hx y := by
    cases x with
    | undefined => rfl
    | number x => cases hx
  less_of_right {y} hy x := by
    cases y with
    | undefined => cases x <;> rfl
    | number y => cases hy

/-- A number that is not undefined is an exact one. -/
theorem exists_number {x : OrUndefined K} (hx : Scalar.isUndefined x = false) :
    ∃ y, x = number y := by
  cases x with
  | undefined => cases hx
  | number y => exact ⟨y, rfl⟩

end OrUndefined

end LatentFactors
