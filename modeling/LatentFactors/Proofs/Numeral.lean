import Mathlib.Algebra.Order.Ring.Int
import Mathlib.Data.Int.Cast.Lemmas
import LatentFactors.Fault
import LatentFactors.Proofs.Arithmetic

/-!
# Numerals of exact numbers

In exact arithmetic a numeral stands for one number, however it was written.
It has a value to compute with (`Outcome.real_eq`), and it is compared with
integers by its value (`Numeral.isBelow_iff` and `Numeral.isAbove_iff`).
-/

namespace LatentFactors

variable {K : Type} [ExactScalar K]

theorem Outcome.real_eq (y : Numeral K) : Outcome.real y = .ok y.value := by
  cases y with
  | integer n =>
    rw [real, Numeral.value?, if_pos (ExactScalar.inRange_eq n)]
    rfl
  | real x => rfl

namespace Numeral

theorem isBelow_iff (y : Numeral K) (n : Int) : y.isBelow n = true ↔ y.value < n := by
  cases y with
  | integer m => rw [isBelow, value, decide_eq_true_eq, ExactScalar.ofInt_eq, Int.cast_lt]
  | real x => rw [isBelow, value, ExactScalar.less_iff, ExactScalar.ofInt_eq]

theorem isAbove_iff (y : Numeral K) (n : Int) : y.isAbove n = true ↔ n < y.value := by
  cases y with
  | integer m => rw [isAbove, value, decide_eq_true_eq, ExactScalar.ofInt_eq, Int.cast_lt]
  | real x => rw [isAbove, value, ExactScalar.less_iff, ExactScalar.ofInt_eq]

end Numeral

end LatentFactors
