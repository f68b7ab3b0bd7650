import Mathlib.Data.Prod.Lex
import LatentFactors.Proofs.Arithmetic

/-!
# The order of numbers

Apart from results of undefined operations, numbers can be put in a row by size
(`OrderLaws`).  This holds of exact numbers, which are all defined, and of
floating-point numbers.  Those are compared by sign, exponent and mantissa, which
is the lexicographic order of their heights (`FloatOrder.compare_eq`), and the two
zeros have the same height.
-/

namespace LatentFactors

/-- Defined numbers are compared by a total preorder. -/
class OrderLaws (α : Type) [Scalar α] : Prop where
  atMost_total {x y : α} (hx : Scalar.isUndefined x = false) (hy : Scalar.isUndefined y = false) :
    Scalar.atMost x y = true ∨ Scalar.atMost y x = true
  atMost_trans {x y z : α} (hx : Scalar.isUndefined x = false) (hy : Scalar.isUndefined y = false)
    (hz : Scalar.isUndefined z = false) (hxy : Scalar.atMost x y = true)
    (hyz : Scalar.atMost y z = true) : Scalar.atMost x z = true
  less_eq {x y : α} (hx : Scalar.isUndefined x = false) (hy : Scalar.isUndefined y = false) :
    Scalar.less x y = !Scalar.atMost y x

/-- Exact numbers are compared by their order. -/
instance {K : Type} [ExactScalar K] : OrderLaws K where
  atMost_total {x y} _ _ := by
    rw [ExactScalar.atMost_iff, ExactScalar.atMost_iff]
    exact le_total x y
  atMost_trans _ _ _ hxy hyz := by
    rw [ExactScalar.atMost_iff] at hxy hyz ⊢
    exact hxy.trans hyz
  less_eq {x y} _ _ := by
    rw [Bool.eq_iff_iff, Bool.not_eq_true', ← Bool.not_eq_true, ExactScalar.less_iff,
      ExactScalar.atMost_iff, not_le]

/-! ## Floating-point numbers -/

namespace FloatOrder

open Float.Model (UnpackedFloat)

/-- Where a floating-point number stands: by its kind, and among those of one sign
by exponent and mantissa. -/
def height : UnpackedFloat → ℤ ×ₗ ℤ ×ₗ ℤ
  | .infinity .negative => toLex (-2, toLex (0, 0))
  | .finite .negative mantissa exponent _ => toLex (-1, toLex (-exponent, -(mantissa : ℤ)))
  | .zero _ | .notANumber => toLex (0, toLex (0, 0))
  | .finite .positive mantissa exponent _ => toLex (1, toLex (exponent, (mantissa : ℤ)))
  | .infinity .positive => toLex (2, toLex (0, 0))

private theorem compare_toLex_aux (a a' b b' c c' : ℤ) :
    compare (toLex (a, toLex (b, c)) : ℤ ×ₗ ℤ ×ₗ ℤ) (toLex (a', toLex (b', c'))) =
      (compare a a').then ((compare b b').then (compare c c')) := rfl

private theorem compare_natCast_aux (m n : ℕ) : compare (m : ℤ) n = compare m n := by
  rcases lt_trichotomy m n with h | h | h
  · rw [compare_lt_iff_lt.2 h, compare_lt_iff_lt.2 (Int.ofNat_lt.2 h)]
  · subst h
    rw [compare_eq_iff_eq.2 rfl, compare_eq_iff_eq.2 rfl]
  · rw [compare_gt_iff_gt.2 h, compare_gt_iff_gt.2 (Int.ofNat_lt.2 h)]

private theorem compare_neg_aux (m n : ℤ) : compare (-m) (-n) = (compare m n).swap := by
  rcases lt_trichotomy m n with h | h | h
  · rw [compare_lt_iff_lt.2 h, compare_gt_iff_gt.2 (neg_lt_neg h)]
    rfl
  · rw [compare_eq_iff_eq.2 h, compare_eq_iff_eq.2 (congrArg Neg.neg h)]
    rfl
  · rw [compare_gt_iff_gt.2 h, compare_lt_iff_lt.2 (neg_lt_neg h)]
    rfl

private theorem compare_positive_aux (e e' : ℤ) (m m' : ℕ) :
    compare (toLex (1, toLex (e, (m : ℤ))) : ℤ ×ₗ ℤ ×ₗ ℤ) (toLex (1, toLex (e', (m' : ℤ)))) =
      (compare e e').then (compare m m') := by
  rw [compare_toLex_aux, compare_natCast_aux]
  rfl

private theorem compare_negative_aux (e e' : ℤ) (m m' : ℕ) :
    compare (toLex (-1, toLex (-e, -(m : ℤ))) : ℤ ×ₗ ℤ ×ₗ ℤ) (toLex (-1, toLex (-e', -(m' : ℤ)))) =
      ((compare e e').then (compare m m')).swap := by
  rw [compare_toLex_aux, compare_neg_aux e e', compare_neg_aux m m', compare_natCast_aux,
    Ordering.swap_then]
  rfl

/-- Defined floating-point numbers are compared by their heights. -/
theorem compare_eq {x y : UnpackedFloat} (hx : x.isNaN = false) (hy : y.isNaN = false) :
    x.compare y = some (compare (height x) (height y)) := by
  cases x with
  | notANumber => cases hx
  | zero s =>
    cases y with
    | notANumber => cases hy
    | zero s' => rfl
    | infinity s' => cases s' <;> rfl
    | finite s' m' e' h' => cases s' <;> rfl
  | infinity s =>
    cases y with
    | notANumber => cases hy
    | zero s' => cases s <;> rfl
    | infinity s' => cases s <;> cases s' <;> rfl
    | finite s' m' e' h' => cases s <;> cases s' <;> rfl
  | finite s m e h =>
    cases y with
    | notANumber => cases hy
    | zero s' => cases s <;> rfl
    | infinity s' => cases s <;> cases s' <;> rfl
    | finite s' m' e' h' =>
      -- Only two numbers of one sign are compared by exponent and mantissa.
      cases s <;> cases s'
      · exact congrArg some (compare_negative_aux e e' m m').symm
      · rfl
      · rfl
      · exact congrArg some (compare_positive_aux e e' m m').symm

theorem atMost_iff {x y : Float} (hx : Scalar.isUndefined x = false)
    (hy : Scalar.isUndefined y = false) :
    Scalar.atMost x y = true ↔ height x.toModel.unpack ≤ height y.toModel.unpack := by
  have h : Scalar.atMost x y = (x.toModel.unpack.compare y.toModel.unpack).any (·.isLE) := by
    show decide (decide (x.toModel ≤ y.toModel) = true) = _
    rw [Bool.decide_eq_true]
    exact Bool.decide_eq_true
  rw [h, compare_eq hx hy, Option.any_some, ← Ordering.ne_gt_iff_isLE, not_iff_comm, not_le,
    compare_gt_iff_gt]

theorem less_eq_compare (x y : Float) :
    Scalar.less x y = (x.toModel.unpack.compare y.toModel.unpack == some .lt) := by
  show decide (decide (x.toModel < y.toModel) = true) = _
  rw [Bool.decide_eq_true]
  exact Bool.decide_eq_true

theorem less_iff {x y : Float} (hx : Scalar.isUndefined x = false)
    (hy : Scalar.isUndefined y = false) :
    Scalar.less x y = true ↔ height x.toModel.unpack < height y.toModel.unpack := by
  rw [less_eq_compare, compare_eq hx hy, beq_iff_eq, Option.some_inj, compare_lt_iff_lt]

end FloatOrder

instance : OrderLaws Float where
  atMost_total hx hy := by
    rw [FloatOrder.atMost_iff hx hy, FloatOrder.atMost_iff hy hx]
    exact le_total _ _
  atMost_trans hx hy hz hxy hyz := by
    rw [FloatOrder.atMost_iff hx hy] at hxy
    rw [FloatOrder.atMost_iff hy hz] at hyz
    exact (FloatOrder.atMost_iff hx hz).2 (hxy.trans hyz)
  less_eq hx hy := by
    rw [Bool.eq_iff_iff, Bool.not_eq_true', ← Bool.not_eq_true, FloatOrder.less_iff hx hy,
      FloatOrder.atMost_iff hy hx, not_le]

end LatentFactors
