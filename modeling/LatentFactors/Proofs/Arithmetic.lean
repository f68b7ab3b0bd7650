import Mathlib.Algebra.BigOperators.Group.List.Basic
import Mathlib.Algebra.Order.Field.Basic
import LatentFactors.Scalar

/-!
# Laws of the arithmetic

The learners run on any `Scalar`, and most of the theory needs no law of the
arithmetic.  The laws that some of it needs come in three strengths.

* `ZeroLaw`: zero compares as equal to zero.  Floating-point numbers have it,
  and with it the sparse updates leave the zero entries alone.
* `ExactScalar`: the numbers are those of an ordered field, compared exactly.
  No result is undefined and no integer is out of range.  Fractions of integers
  that differ are spelled in different ways.
* `LinkLaws`: what exact links have in common, which is that the logistic
  function rises strictly between zero and one and that the exponential
  function is positive.
-/

namespace LatentFactors

/-- Zero compares as equal to itself. -/
class ZeroLaw (α : Type) [Scalar α] : Prop where
  equals_zero : Scalar.equals (0 : α) 0 = true

/-- Floating-point zero compares as equal to itself. -/
instance : ZeroLaw Float := ⟨by decide⟩

/-- The arithmetic of an ordered field. -/
class ExactScalar (α : Type) extends Scalar α, Field α, LinearOrder α, IsStrictOrderedRing α where
  less_iff (x y : α) : Scalar.less x y = true ↔ x < y
  atMost_iff (x y : α) : Scalar.atMost x y = true ↔ x ≤ y
  equals_iff (x y : α) : Scalar.equals x y = true ↔ x = y
  isUndefined_eq (x : α) : Scalar.isUndefined x = false
  ofInt_eq (n : Int) : (Scalar.ofInt n : α) = n
  inRange_eq (n : Int) : Scalar.inRange α n = true
  decimal_eq (m p : Nat) : (Scalar.decimal m p : α) = m / 10 ^ p
  truncate_intCast (n : Int) : Scalar.truncate (n : α) = .ok n
  truncate_ne_undefined (x : α) : Scalar.truncate x ≠ .error .undefined
  spell_ratCast_injective (p q : ℚ) : Scalar.spell (p : α) = Scalar.spell (q : α) → p = q

/-- What links between scores and probabilities have in common. -/
structure LinkLaws (α : Type) [ExactScalar α] : Prop where
  expit_strictMono : StrictMono (Scalar.expit : α → α)
  expit_pos (x : α) : 0 < Scalar.expit x
  expit_lt_one (x : α) : Scalar.expit x < 1
  exp_pos (x : α) : 0 < Scalar.exp x

namespace Scalar

/-- Zero is not nonzero. -/
theorem nonzero_zero {α : Type} [Scalar α] [ZeroLaw α] : nonzero (0 : α) = false := by
  rw [nonzero, ZeroLaw.equals_zero]
  rfl

variable {α : Type} [ExactScalar α]

instance : ZeroLaw α := ⟨(ExactScalar.equals_iff 0 0).2 rfl⟩

theorem nonzero_iff {x : α} : nonzero x = true ↔ x ≠ 0 := by
  rw [nonzero, Bool.not_eq_true', ← Bool.not_eq_true, ExactScalar.equals_iff]

/-- In exact arithmetic the larger of two numbers is their maximum. -/
theorem larger_eq_max (x y : α) : larger x y = max x y := by
  rw [larger, ExactScalar.isUndefined_eq, ExactScalar.isUndefined_eq]
  by_cases h : x < y
  · simp [(ExactScalar.less_iff x y).2 h, max_eq_right h.le]
  · have hless : less x y = false := by
      rw [← Bool.not_eq_true, ExactScalar.less_iff]
      exact h
    simp [hless, max_eq_left (not_lt.1 h)]

/-- In exact arithmetic the total of a list is its sum. -/
theorem total_eq_sum (xs : List α) : total xs = xs.sum := by
  rw [total, List.sum_eq_foldl]

end Scalar

end LatentFactors
