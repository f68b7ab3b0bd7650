import Mathlib.Algebra.BigOperators.Ring.List
import Mathlib.Algebra.Order.BigOperators.Group.List
import Mathlib.Tactic.FieldSimp
import Mathlib.Tactic.Linarith
import Mathlib.Tactic.Ring
import LatentFactors.Evaluation
import LatentFactors.Proofs.Arithmetic

/-!
# Means in exact arithmetic

In exact arithmetic a mean is a sum divided by a length, so it does not depend on the
order of the numbers, and it lies between their bounds.  The mean of some squares is
the square of the mean and the mean of the squared deviations from it
(`Scalar.mean_sq_deviation`).
-/

namespace LatentFactors

variable {K β : Type} [ExactScalar K]

namespace Scalar

theorem mean_eq (xs : List K) : mean xs = xs.sum / xs.length := by
  rw [mean, total_eq_sum, ExactScalar.ofInt_eq, Int.cast_natCast]

theorem length_pos_cast {xs : List K} (h : xs ≠ []) : (0 : K) < xs.length :=
  Nat.cast_pos.2 (List.length_pos_iff.2 h)

theorem mean_perm {xs ys : List K} (h : xs.Perm ys) : mean xs = mean ys := by
  rw [mean_eq, mean_eq, h.sum_eq, h.length_eq]

/-- A mean lies between the bounds of the numbers. -/
theorem mean_bounds {xs : List K} (hne : xs ≠ []) {a b : K} (h : ∀ x ∈ xs, a ≤ x ∧ x ≤ b) :
    a ≤ mean xs ∧ mean xs ≤ b := by
  rw [mean_eq, le_div_iff₀ (length_pos_cast hne), div_le_iff₀ (length_pos_cast hne), mul_comm a,
    mul_comm b, ← nsmul_eq_mul, ← nsmul_eq_mul]
  exact ⟨List.card_nsmul_le_sum xs a fun x hx => (h x hx).1,
    List.sum_le_card_nsmul xs b fun x hx => (h x hx).2⟩

theorem mean_of_forall_eq {xs : List K} (hne : xs ≠ []) {c : K} (h : ∀ x ∈ xs, x = c) :
    mean xs = c := by
  obtain ⟨hle, hge⟩ := mean_bounds hne fun x hx => ⟨(h x hx).ge, (h x hx).le⟩
  exact le_antisymm hge hle

theorem mean_nonneg {xs : List K} (h : ∀ x ∈ xs, 0 ≤ x) : 0 ≤ mean xs := by
  rw [mean_eq]
  exact div_nonneg (List.sum_nonneg h) (Nat.cast_nonneg _)

theorem mean_le_mean {xs ys : List K} (h : List.Forall₂ (· ≤ ·) xs ys) : mean xs ≤ mean ys := by
  rw [mean_eq, mean_eq, h.length_eq]
  exact div_le_div_of_nonneg_right h.sum_le_sum (Nat.cast_nonneg _)

/-- The mean of numbers that are not negative is zero exactly when they all are. -/
theorem mean_eq_zero_iff {xs : List K} (hne : xs ≠ []) (h : ∀ x ∈ xs, 0 ≤ x) :
    mean xs = 0 ↔ ∀ x ∈ xs, x = 0 := by
  refine ⟨fun hzero x hx => ?_, mean_of_forall_eq hne⟩
  rw [mean_eq, div_eq_zero_iff] at hzero
  have hsum := hzero.resolve_right (length_pos_cast hne).ne'
  exact le_antisymm ((List.single_le_sum h x hx).trans_eq hsum) (h x hx)

theorem sum_sq_deviation (xs : List K) (m : K) :
    (xs.map fun x => (x - m) * (x - m)).sum =
      (xs.map fun x => x * x).sum - 2 * m * xs.sum + xs.length * (m * m) := by
  induction xs with
  | nil => simp
  | cons x xs ih =>
    simp only [List.map_cons, List.sum_cons, List.length_cons, Nat.cast_succ, ih]
    ring

/-- The squared deviations from the mean have the mean square without the square of
the mean as their mean. -/
theorem mean_sq_deviation {xs : List K} (hne : xs ≠ []) :
    mean (xs.map fun x => (x - mean xs) * (x - mean xs)) =
      mean (xs.map fun x => x * x) - mean xs * mean xs := by
  have hpos := (length_pos_cast hne).ne'
  have hsum : xs.sum = mean xs * xs.length := by
    rw [mean_eq, div_mul_cancel₀ _ hpos]
  rw [mean_eq, mean_eq (xs.map fun x => x * x), sum_sq_deviation, hsum, List.length_map,
    List.length_map]
  field_simp
  ring

end Scalar

namespace Evaluation

theorem meanPresent_eq {α : Type} [Scalar α] (xs : List (Option α)) :
    meanPresent xs =
      if xs.filterMap id = [] then none else some (Scalar.mean (xs.filterMap id)) := by
  rw [meanPresent]
  split
  · next hnil => rw [if_pos hnil]
  · next hcons => rw [hcons, if_neg (List.cons_ne_nil _ _)]

theorem meanPresent_perm {xs ys : List (Option K)} (h : xs.Perm ys) :
    meanPresent xs = meanPresent ys := by
  have hpresent := h.filterMap id
  rw [meanPresent_eq, meanPresent_eq, Scalar.mean_perm hpresent]
  congr 1
  rw [← List.length_eq_zero_iff, hpresent.length_eq, List.length_eq_zero_iff]

omit [ExactScalar K] in
theorem mem_filterMap_id {x : K} {xs : List (Option K)} : x ∈ xs.filterMap id ↔ some x ∈ xs := by
  rw [List.mem_filterMap]
  exact ⟨fun ⟨_, hx, heq⟩ => heq ▸ hx, fun hx => ⟨_, hx, rfl⟩⟩

/-- There is a mean exactly when a number is present. -/
theorem isSome_meanPresent {xs : List (Option K)} :
    (meanPresent xs).isSome = true ↔ ∃ x, some x ∈ xs := by
  simp only [← mem_filterMap_id, ← List.length_pos_iff_exists_mem, List.length_pos_iff]
  rw [meanPresent_eq]
  split
  · next hnil => simp only [hnil, Option.isSome_none, Bool.false_eq_true, ne_eq, not_true_eq_false]
  · next hne => simp only [hne, Option.isSome_some, ne_eq, not_false_eq_true]

/-- Bounds of the numbers that are present are bounds of their mean. -/
theorem meanPresent_bounds {xs : List (Option K)} {a b m : K}
    (h : ∀ x, some x ∈ xs → a ≤ x ∧ x ≤ b) (hm : m ∈ meanPresent xs) : a ≤ m ∧ m ≤ b := by
  rw [meanPresent_eq] at hm
  split at hm
  · cases hm
  · next hne =>
    rw [← Option.some.inj hm]
    exact Scalar.mean_bounds hne fun x hx => h x (mem_filterMap_id.1 hx)

end Evaluation

end LatentFactors
