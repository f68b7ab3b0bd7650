import LatentFactors.Proofs.Arithmetic.Real
import LatentFactors.Proofs.Arithmetic.Undefined
import LatentFactors.Proofs.Evaluation.Means
import LatentFactors.Proofs.Outcome

/-!
# Mean errors

In exact arithmetic the mean of some numbers that are not negative is at most the root
of their mean square, since the difference of the squares is the mean squared deviation.
So the mean absolute error is at most the root of the mean squared error.

Where errors may be undefined, both means are if one of the errors is or if there are
none.  Otherwise they are those of exact numbers (`OrUndefined.atMost_of_errors`).
-/

namespace LatentFactors

variable {K : Type} [ExactScalar K]

/-- What square roots have in common. -/
structure RootLaws (K : Type) [ExactScalar K] : Prop where
  sqrt_nonneg (x : K) : 0 ≤ x → 0 ≤ Scalar.sqrt x
  sqrt_mul_self (x : K) : 0 ≤ x → Scalar.sqrt x * Scalar.sqrt x = x

/-- The roots of real numbers have the laws. -/
theorem rootLaws_real : RootLaws ℝ where
  sqrt_nonneg x _ := Real.sqrt_nonneg x
  sqrt_mul_self _ hx := Real.mul_self_sqrt hx

namespace Scalar

theorem abs_eq (x : K) : Scalar.abs x = |x| := by
  rw [Scalar.abs]
  split
  · next h => rw [abs_of_neg ((ExactScalar.less_iff x 0).1 h)]
  · next h => rw [abs_of_nonneg (not_lt.1 fun hlt => h ((ExactScalar.less_iff x 0).2 hlt))]

/-- The root mean square. -/
def rootMeanSquare (xs : List K) : K := sqrt (mean (xs.map fun x => x * x))

theorem mean_sq_nonneg (xs : List K) : 0 ≤ mean (xs.map fun x => x * x) := by
  refine mean_nonneg fun y hy => ?_
  obtain ⟨x, -, rfl⟩ := List.mem_map.1 hy
  exact mul_self_nonneg x

theorem mean_sq_eq_zero_iff {xs : List K} (hne : xs ≠ []) :
    mean (xs.map fun x => x * x) = 0 ↔ ∀ x ∈ xs, x = 0 := by
  rw [mean_eq_zero_iff (List.map_eq_nil_iff.not.2 hne)]
  · simp only [List.forall_mem_map, mul_self_eq_zero]
  · simp only [List.forall_mem_map, mul_self_nonneg, implies_true]

/-- The numbers are all the same exactly where they do not deviate from their mean. -/
theorem forall_eq_mean_iff {xs : List K} (hne : xs ≠ []) :
    (∀ x ∈ xs, x = mean xs) ↔ ∀ x ∈ xs, ∀ y ∈ xs, x = y := by
  refine ⟨fun h x hx y hy => (h x hx).trans (h y hy).symm, fun h x hx => ?_⟩
  exact (mean_of_forall_eq hne fun y hy => h y hy x hx).symm

section

variable (hroot : RootLaws K) {xs : List K}
include hroot

theorem rootMeanSquare_nonneg : 0 ≤ rootMeanSquare xs :=
  hroot.sqrt_nonneg _ (mean_sq_nonneg xs)

theorem rootMeanSquare_mul_self :
    rootMeanSquare xs * rootMeanSquare xs = mean (xs.map fun x => x * x) :=
  hroot.sqrt_mul_self _ (mean_sq_nonneg xs)

theorem rootMeanSquare_eq_zero_iff (hne : xs ≠ []) :
    rootMeanSquare xs = 0 ↔ ∀ x ∈ xs, x = 0 := by
  rw [← mul_self_eq_zero, rootMeanSquare_mul_self hroot, mean_sq_eq_zero_iff hne]

theorem mean_le_rootMeanSquare (hne : xs ≠ []) (hxs : ∀ x ∈ xs, 0 ≤ x) :
    mean xs ≤ rootMeanSquare xs := by
  refine (mul_self_le_mul_self_iff (mean_nonneg hxs) (rootMeanSquare_nonneg hroot)).2 ?_
  rw [rootMeanSquare_mul_self hroot, ← sub_nonneg, ← mean_sq_deviation hne]
  refine mean_nonneg fun y hy => ?_
  obtain ⟨x, -, rfl⟩ := List.mem_map.1 hy
  exact mul_self_nonneg _

/-- The two means are the same exactly where all numbers are. -/
theorem mean_eq_rootMeanSquare_iff (hne : xs ≠ []) (hxs : ∀ x ∈ xs, 0 ≤ x) :
    mean xs = rootMeanSquare xs ↔ ∀ x ∈ xs, ∀ y ∈ xs, x = y := by
  have hdeviation := mean_sq_eq_zero_iff (List.map_eq_nil_iff.not.2 hne : xs.map (· - mean xs) ≠ [])
  rw [List.map_map] at hdeviation
  rw [← mul_self_inj (mean_nonneg hxs) (rootMeanSquare_nonneg hroot),
    rootMeanSquare_mul_self hroot, eq_comm, ← sub_eq_zero, ← mean_sq_deviation hne,
    ← forall_eq_mean_iff hne]
  refine hdeviation.trans ?_
  simp only [List.forall_mem_map, sub_eq_zero]

end

end Scalar

/-! ## Errors of exact numbers -/

namespace Evaluation

theorem errors_of_length {α : Type} [Scalar α] {xs ts : List α} (h : xs.length = ts.length) :
    errors xs ts = .ok ((xs.zip ts).map fun e => e.1 - e.2) := by
  have hpaired : paired xs ts = .ok (xs.zip ts) := by
    unfold paired
    exact if_pos h
  exact Outcome.bind_eq_ok.2 ⟨_, hpaired, rfl⟩

/-- The absolute errors of predictions. -/
def absoluteErrors (predictions truth : List K) : List K :=
  (predictions.zip truth).map fun e => |e.1 - e.2|

variable {xs ts : List K}

theorem absoluteErrors_nonneg : ∀ e ∈ absoluteErrors xs ts, 0 ≤ e := by
  intro e he
  obtain ⟨pair, -, rfl⟩ := List.mem_map.1 he
  exact abs_nonneg _

theorem absoluteErrors_ne_nil (hlength : xs.length = ts.length) (hne : xs ≠ []) :
    absoluteErrors xs ts ≠ [] := by
  rw [← List.length_pos_iff, absoluteErrors, List.length_map, List.length_zip, ← hlength,
    Nat.min_self]
  exact List.length_pos_iff.2 hne

/-- No prediction has an error exactly where the lists are the same. -/
theorem absoluteErrors_eq_zero_iff (hlength : xs.length = ts.length) :
    (∀ e ∈ absoluteErrors xs ts, e = 0) ↔ xs = ts := by
  rw [absoluteErrors, List.forall_mem_map]
  simp only [abs_eq_zero, sub_eq_zero]
  constructor
  · intro h
    refine List.ext_getElem hlength fun i hx ht => ?_
    have hpair : (xs.zip ts)[i]? = some (xs[i], ts[i]) :=
      List.getElem?_zip_eq_some.2 ⟨List.getElem?_eq_getElem hx, List.getElem?_eq_getElem ht⟩
    exact h (xs[i], ts[i]) (List.mem_of_getElem? hpair)
  · rintro rfl pair hpair
    rw [List.zip, List.zipWith_self] at hpair
    obtain ⟨x, -, rfl⟩ := List.mem_map.1 hpair
    rfl

theorem mae_eq (hlength : xs.length = ts.length) :
    mae xs ts = .ok (Scalar.mean (absoluteErrors xs ts)) := by
  refine Outcome.bind_eq_ok.2 ⟨_, errors_of_length hlength, congrArg (Except.ok ∘ Scalar.mean) ?_⟩
  rw [List.map_map, absoluteErrors]
  exact List.map_congr_left fun e _ => Scalar.abs_eq _

theorem rmse_eq (hlength : xs.length = ts.length) :
    rmse xs ts = .ok (Scalar.rootMeanSquare (absoluteErrors xs ts)) := by
  refine Outcome.bind_eq_ok.2 ⟨_, errors_of_length hlength,
    congrArg (Except.ok ∘ Scalar.sqrt ∘ Scalar.mean) ?_⟩
  rw [List.map_map, absoluteErrors, List.map_map]
  exact List.map_congr_left fun e _ => (abs_mul_abs_self _).symm

end Evaluation

/-! ## Errors of numbers that may be undefined -/

namespace OrUndefined

/-- Both undefined, or numbers of which the first is not negative and at most the
second. -/
inductive AtMost : OrUndefined K → OrUndefined K → Prop
  | undefined : AtMost undefined undefined
  | number {a b : K} (nonneg : 0 ≤ a) (le : a ≤ b) : AtMost (number a) (number b)

/-- Numbers that are all defined are exact ones. -/
theorem exists_numbers {xs : List (OrUndefined K)}
    (h : ∀ x ∈ xs, Scalar.isUndefined x = false) : ∃ ys : List K, xs = ys.map number := by
  induction xs with
  | nil => exact ⟨[], rfl⟩
  | cons x xs ih =>
    obtain ⟨y, rfl⟩ := exists_number (h x List.mem_cons_self)
    obtain ⟨ys, rfl⟩ := ih fun z hz => h z (List.mem_cons_of_mem _ hz)
    exact ⟨y :: ys, rfl⟩

theorem mem_or_exists_numbers (xs : List (OrUndefined K)) :
    undefined ∈ xs ∨ ∃ ys : List K, xs = ys.map number := by
  refine or_iff_not_imp_left.2 fun hnot => exists_numbers fun x hx => ?_
  cases x with
  | undefined => exact absurd hx hnot
  | number => rfl

/-! ### Means -/

theorem total_number (xs : List K) :
    Scalar.total (xs.map number) = number (Scalar.total xs) := by
  rw [Scalar.total, Scalar.total, List.foldl_map]
  exact (List.foldl_hom number fun _ _ => rfl)

/-- A number makes every sum that it is in undefined if it is. -/
theorem total_of_mem {xs : List (OrUndefined K)} (h : undefined ∈ xs) :
    Scalar.total xs = undefined := by
  have hadd (x : OrUndefined K) : x + undefined = undefined := by
    cases x <;> rfl
  have hkept (ys : List (OrUndefined K)) : ys.foldl (· + ·) undefined = undefined := by
    induction ys with
    | nil => rfl
    | cons y ys ih => exact ih
  obtain ⟨ys, zs, rfl⟩ := List.append_of_mem h
  rw [Scalar.total, List.foldl_append, List.foldl_cons, hadd, hkept]

theorem mean_of_mem {xs : List (OrUndefined K)} (h : undefined ∈ xs) :
    Scalar.mean xs = undefined := by
  rw [Scalar.mean, total_of_mem h]
  rfl

theorem mean_nil : Scalar.mean ([] : List (OrUndefined K)) = undefined := by
  refine if_pos ((ExactScalar.equals_iff _ _).2 ?_)
  rw [ExactScalar.ofInt_eq]
  exact Int.cast_zero

theorem mean_number {xs : List K} (hne : xs ≠ []) :
    Scalar.mean (xs.map number) = number (Scalar.mean xs) := by
  have hlength : Scalar.equals (Scalar.ofInt xs.length : K) 0 = false := by
    rw [← Bool.not_eq_true, ExactScalar.equals_iff, ExactScalar.ofInt_eq, Int.cast_natCast]
    exact (Scalar.length_pos_cast hne).ne'
  rw [Scalar.mean, total_number, List.length_map]
  exact if_neg (Bool.eq_false_iff.1 hlength)

theorem mean_abs_number {es : List K} (hne : es ≠ []) :
    Scalar.mean ((es.map number).map Scalar.abs) =
      number (Scalar.mean (es.map fun e => |e|)) := by
  rw [← mean_number (List.map_eq_nil_iff.not.2 hne), List.map_map, List.map_map]
  refine congrArg Scalar.mean (List.map_congr_left fun e _ => ?_)
  calc Scalar.abs (number e)
      = number (Scalar.abs e) := (apply_ite number _ _ _).symm
    _ = number |e| := congrArg number (Scalar.abs_eq e)

theorem sqrt_mean_sq_number {es : List K} (hne : es ≠ []) :
    Scalar.sqrt (Scalar.mean ((es.map number).map fun e => e * e)) =
      number (Scalar.rootMeanSquare (es.map fun e => |e|)) := by
  have hsquares : ((es.map number).map fun e => e * e) =
      ((es.map fun e => |e|).map fun e => e * e).map number := by
    simp only [List.map_map]
    exact List.map_congr_left fun e _ => congrArg number (abs_mul_abs_self e).symm
  have hne' : ((es.map fun e => |e|).map fun e => e * e) ≠ [] := by
    simpa using hne
  rw [hsquares, mean_number hne']
  refine if_neg fun hless => ?_
  exact not_lt.2 (Scalar.mean_sq_nonneg _) ((ExactScalar.less_iff _ _).1 hless)

/-- Of any errors, the mean absolute error is at most the root mean square. -/
theorem atMost_of_errors (hroot : RootLaws K) (es : List (OrUndefined K)) :
    AtMost (Scalar.mean (es.map Scalar.abs))
      (Scalar.sqrt (Scalar.mean (es.map fun e => e * e))) := by
  rcases mem_or_exists_numbers es with hmem | ⟨es, rfl⟩
  · rw [mean_of_mem (List.mem_map.2 ⟨undefined, hmem, rfl⟩),
      mean_of_mem (List.mem_map.2 ⟨undefined, hmem, rfl⟩)]
    exact .undefined
  · by_cases hnil : es = []
    · subst hnil
      rw [List.map_nil, List.map_nil, List.map_nil, mean_nil]
      exact .undefined
    · have hnonneg : ∀ e ∈ es.map fun e => |e|, 0 ≤ e := by
        simp only [List.forall_mem_map, abs_nonneg, implies_true]
      rw [mean_abs_number hnil, sqrt_mean_sq_number hnil]
      exact .number (Scalar.mean_nonneg hnonneg)
        (Scalar.mean_le_rootMeanSquare hroot (List.map_eq_nil_iff.not.2 hnil) hnonneg)

end OrUndefined

namespace Evaluation

open OrUndefined (number AtMost)

/-- What can be measured at all has a mean absolute error of at most its root mean
squared error. -/
theorem atMost_of_measured (hroot : RootLaws K) {xs ts : List (OrUndefined K)}
    {a b : OrUndefined K} (ha : mae xs ts = .ok a) (hb : rmse xs ts = .ok b) : AtMost a b := by
  obtain ⟨es, hes, ha⟩ := Outcome.bind_eq_ok.1 ha
  obtain ⟨es', hes', hb⟩ := Outcome.bind_eq_ok.1 hb
  cases hes.symm.trans hes'
  cases ha
  cases hb
  exact OrUndefined.atMost_of_errors hroot es

/-- A metric that gives a number for numbers. -/
def GivesNumber (metric : Metric (OrUndefined K)) : Prop :=
  ∀ xs ts : List K, xs.length = ts.length → xs ≠ [] →
    ∃ y, metric (xs.map number) (ts.map number) = .ok (number y)

/-- The errors of numbers are numbers. -/
theorem errors_number {xs ts : List K} (hlength : xs.length = ts.length) (hne : xs ≠ []) :
    ∃ es : List K, es ≠ [] ∧ errors (xs.map number) (ts.map number) = .ok (es.map number) := by
  refine ⟨(xs.zip ts).map fun e => e.1 - e.2, ?_, ?_⟩
  · rw [← List.length_pos_iff, List.length_map, List.length_zip, ← hlength, Nat.min_self]
    exact List.length_pos_iff.2 hne
  · rw [errors_of_length (by rw [List.length_map, List.length_map, hlength]), List.zip_map,
      List.map_map, List.map_map]
    rfl

theorem mae_givesNumber : GivesNumber (K := K) mae := by
  intro xs ts hlength hne
  obtain ⟨es, hes, herrors⟩ := errors_number hlength hne
  exact ⟨_, Outcome.bind_eq_ok.2 ⟨_, herrors, congrArg Except.ok (OrUndefined.mean_abs_number hes)⟩⟩

theorem rmse_givesNumber : GivesNumber (K := K) rmse := by
  intro xs ts hlength hne
  obtain ⟨es, hes, herrors⟩ := errors_number hlength hne
  exact ⟨_, Outcome.bind_eq_ok.2
    ⟨_, herrors, congrArg Except.ok (OrUndefined.sqrt_mean_sq_number hes)⟩⟩

end Evaluation

end LatentFactors
