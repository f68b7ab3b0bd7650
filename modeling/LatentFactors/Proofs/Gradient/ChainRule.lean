import Mathlib.Algebra.BigOperators.Intervals
import Mathlib.Analysis.SpecialFunctions.Log.Deriv
import Mathlib.Data.List.GetD
import LatentFactors.Proofs.Arithmetic.Rational
import LatentFactors.Proofs.Arithmetic.Real
import LatentFactors.Proofs.Gradient.ClosedForm
import LatentFactors.Proofs.Hypothesis.Distribution

/-!
# The steps of ordered classes are a chain rule

The logarithm of the probability of a class depends on the scores at the two
ends of that class only.  `Hypothesis.scoreSlope` says how it changes with a
score.  A threshold is the sum of the increments up to it, so an increment moves
every score from its own on, and a parameter moves all scores at once, against
its feature.

* `Gradient.cutSteps_eq`: the step of an increment is the sum of the slopes from
  it on, less the penalty times the increment.
* `threshold_steps_are_chain_rule`: and the step of a parameter without a
  penalty is the negated feature times the step of the first increment.
* `Hypothesis.hasDerivAt_log_classProbability`: on the real numbers the slopes
  are the derivatives along every curve of scores, so both steps are gradients of
  the log-likelihood (`Hypothesis.hasDerivAt_of_increment`,
  `Hypothesis.hasDerivAt_of_parameter`).
-/

namespace LatentFactors

open Finset (Ico range)

/-- A text is no factor of anything, and everything else is multiplied alike by
a number and by a vector. -/
theorem Setting.vectorFactor_of_factor {α : Type} [Scalar α] {s : Setting α} {x : α}
    (h : s.factor = .ok x) : s.vectorFactor = .ok x := by
  cases s with
  | text s => cases h
  | number n => exact h
  | flag b => exact h
  | absent => exact h
  | list elements => exact h
  | table entries => exact h

variable {K : Type} [ExactScalar K]

/-! ## Slopes by the scores -/

namespace Hypothesis

private theorem sum_take_differences_aux {cumulative : List K} {low : K} {c : Nat}
    (hc : c ≤ cumulative.length + 1) :
    ((List.zipWith (· - ·) (cumulative ++ [1]) (low :: cumulative)).take c).sum =
      (low :: (cumulative ++ [1])).getD c 0 - low := by
  induction cumulative generalizing low c with
  | nil =>
    cases c with
    | zero => simp
    | succ c =>
      obtain rfl : c = 0 := by simpa using hc
      simp
  | cons x rest ih =>
    cases c with
    | zero => simp
    | succ c =>
      have hrest : c ≤ rest.length + 1 := Nat.le_of_succ_le_succ hc
      rw [List.cons_append, List.zipWith_cons_cons, List.take_succ_cons, List.sum_cons, ih hrest,
        List.getD_cons_succ]
      exact sub_add_sub_cancel' x low _

/-- The probabilities of the first classes sum up to the cumulative probability
at their upper end, which is zero for no class and one for all of them. -/
theorem sum_take_classProbabilities {cumulative : List K} {c : Nat}
    (hc : c ≤ cumulative.length + 1) :
    ((classProbabilities cumulative).take c).sum = (0 :: (cumulative ++ [1])).getD c 0 := by
  rw [classProbabilities, sum_take_differences_aux hc, sub_zero]

/-- The probabilities of ordered classes with some scores. -/
def orderedClasses (scores : List K) : List K := classProbabilities (scores.map Scalar.expit)

theorem length_orderedClasses (scores : List K) :
    (orderedClasses scores).length = scores.length + 1 := by
  rw [orderedClasses, length_classProbabilities, List.length_map]

theorem sum_orderedClasses (scores : List K) : (orderedClasses scores).sum = 1 := by
  have hall := sum_take_classProbabilities (le_refl ((scores.map Scalar.expit).length + 1))
  rw [List.take_of_length_le (by simp), List.getD_cons_succ] at hall
  simpa [orderedClasses] using hall

/-- How the logarithm of the probability of class `c` changes with score `j`.
Only the scores at the two ends of the class matter: the slope at the upper end
counts for it and the one at the lower end against it. -/
def scoreSlope (prediction : List K) (c j : Nat) : K :=
  if j = c then Gradient.slope (prediction.take (j + 1)).sum / prediction.getD c 0
  else if j + 1 = c then -Gradient.slope (prediction.take (j + 1)).sum / prediction.getD c 0
  else 0

/-- A sum over all scores has at most two terms, those at the ends of the
class.  The last class has no upper end and the first one no lower end. -/
theorem sum_scoreSlope (prediction : List K) {n c : Nat} (hc : c ≤ n) (weight : Nat → K) :
    ∑ j ∈ range n, scoreSlope prediction c j * weight j =
      ((if c < n then Gradient.slope (prediction.take (c + 1)).sum * weight c else 0) -
        if 0 < c then Gradient.slope (prediction.take c).sum * weight (c - 1) else 0) /
          prediction.getD c 0 := by
  have hsplit (j : Nat) : scoreSlope prediction c j * weight j =
      (if j = c then Gradient.slope (prediction.take (c + 1)).sum * weight c /
          prediction.getD c 0 else 0) -
        if j + 1 = c then Gradient.slope (prediction.take c).sum * weight (c - 1) /
          prediction.getD c 0 else 0 := by
    rw [scoreSlope]
    split
    · next h =>
      rw [if_neg (by omega), sub_zero, h, div_mul_eq_mul_div]
    · split
      · next h =>
        rw [zero_sub, h, ← h, Nat.add_sub_cancel, neg_div, neg_mul, div_mul_eq_mul_div]
      · rw [zero_mul, sub_zero]
  rw [Finset.sum_congr rfl fun j _ => hsplit j, Finset.sum_sub_distrib, Finset.sum_ite_eq', sub_div]
  simp only [Finset.mem_range, ite_div, zero_div]
  congr 1
  cases c with
  | zero => simp
  | succ m =>
    have hm : m < n := hc
    simp only [Nat.add_right_cancel_iff, Finset.sum_ite_eq', Finset.mem_range, if_pos hm,
      Nat.succ_pos, if_true]

/-- A sum from a score on leaves out the scores before it. -/
theorem sum_scoreSlope_from (prediction : List K) (n c i : Nat) :
    ∑ j ∈ Ico i n, scoreSlope prediction c j =
      ∑ j ∈ range n, scoreSlope prediction c j * if i ≤ j then 1 else 0 := by
  have hIco : Ico i n = (range n).filter (i ≤ ·) := by
    ext j
    simp only [Finset.mem_Ico, Finset.mem_filter, Finset.mem_range]
    omega
  simp only [hIco, Finset.sum_filter, mul_ite, mul_one, mul_zero]

/-- The slopes from a score on. -/
theorem sum_scoreSlope_Ico (prediction : List K) {n c : Nat} (hc : c ≤ n) (i : Nat) :
    ∑ j ∈ Ico i n, scoreSlope prediction c j =
      ((if i ≤ c ∧ c < n then Gradient.slope (prediction.take (c + 1)).sum else 0) -
        if i < c then Gradient.slope (prediction.take c).sum else 0) / prediction.getD c 0 := by
  rw [sum_scoreSlope_from, sum_scoreSlope prediction hc]
  congr 2
  · simp only [mul_ite, mul_one, mul_zero, ← ite_and, and_comm]
  · have hiff : (0 < c ∧ i ≤ c - 1) ↔ i < c := by omega
    simp only [mul_ite, mul_one, mul_zero, ← ite_and, hiff]

end Hypothesis

/-! ## Derivatives on the real numbers -/

section Derivatives

variable (scores : ℝ → List ℝ) {n : Nat} {d : Nat → ℝ} {t : ℝ}

namespace Hypothesis

private theorem hasDerivAt_sum_aux (hlength : ∀ x, (scores x).length = n)
    (hscores : ∀ j < n, HasDerivAt (fun x => (scores x).getD j 0) (d j) t) {m : Nat}
    (hm : m ≤ n + 1) :
    HasDerivAt (fun x => ((orderedClasses (scores x)).take m).sum)
      (if 0 < m ∧ m ≤ n then
        Gradient.slope ((orderedClasses (scores t)).take m).sum * d (m - 1) else 0) t := by
  have hsum (x : ℝ) : ((orderedClasses (scores x)).take m).sum =
      (0 :: ((scores x).map Scalar.expit ++ [1])).getD m 0 :=
    sum_take_classProbabilities (by rw [List.length_map, hlength]; exact hm)
  simp only [hsum]
  cases m with
  | zero => simpa using hasDerivAt_const t (0 : ℝ)
  | succ j =>
    by_cases hj : j < n
    · have hinner (x : ℝ) : (0 :: ((scores x).map Scalar.expit ++ [1])).getD (j + 1) 0 =
          Real.sigmoid ((scores x).getD j 0) := by
        have hlt : j < (scores x).length := (hlength x).symm ▸ hj
        rw [List.getD_cons_succ, List.getD_append _ _ _ _ (by simpa),
          List.getD_eq_getElem _ _ (by simpa), List.getD_eq_getElem _ _ hlt, List.getElem_map]
        rfl
      simp only [hinner]
      rw [if_pos ⟨j.succ_pos, hj⟩]
      exact (Real.hasDerivAt_sigmoid _).comp t (hscores j hj)
    · have houter (x : ℝ) : (0 :: ((scores x).map Scalar.expit ++ [1])).getD (j + 1) 0 = 1 := by
        have heq : j = (scores x).length := by
          rw [hlength]
          omega
        simp [heq]
      simp only [houter]
      rw [if_neg (by omega)]
      exact hasDerivAt_const t 1

/-- Along a curve of scores, the logarithm of the probability of a class changes
by the slopes times the changes of the scores. -/
theorem hasDerivAt_log_classProbability (hlength : ∀ x, (scores x).length = n)
    (hscores : ∀ j < n, HasDerivAt (fun x => (scores x).getD j 0) (d j) t) {c : Nat} (hc : c ≤ n)
    (hp : (orderedClasses (scores t)).getD c 0 ≠ 0) :
    HasDerivAt (fun x => Real.log ((orderedClasses (scores x)).getD c 0))
      (∑ j ∈ range n, scoreSlope (orderedClasses (scores t)) c j * d j) t := by
  have hdifference (x : ℝ) : (orderedClasses (scores x)).getD c 0 =
      ((orderedClasses (scores x)).take (c + 1)).sum -
        ((orderedClasses (scores x)).take c).sum := by
    have hlt : c < (orderedClasses (scores x)).length := by
      rw [length_orderedClasses, hlength]
      omega
    rw [List.sum_take_succ _ _ hlt, add_sub_cancel_left, List.getD_eq_getElem _ _ hlt]
  have hupper := hasDerivAt_sum_aux scores hlength hscores (m := c + 1) (by omega)
  have hlower := hasDerivAt_sum_aux scores hlength hscores (m := c) (by omega)
  have hderiv : HasDerivAt (fun x => (orderedClasses (scores x)).getD c 0) _ t :=
    (hupper.sub hlower).congr_of_eventuallyEq (.of_forall hdifference)
  refine (hderiv.log hp).congr_deriv ?_
  have hends : (0 < c + 1 ∧ c + 1 ≤ n) ↔ c < n := by omega
  rw [sum_scoreSlope _ hc]
  simp only [hends, hc, and_true, Nat.add_sub_cancel]

/-- The log-likelihood changes with an increment by the slopes from it on. -/
theorem hasDerivAt_of_increment {cuts : List ℝ} (score : ℝ) {c i : Nat} (hc : c ≤ cuts.length)
    (hi : i < cuts.length)
    (hp : (orderedClasses ((Scalar.running cuts).map (· - score))).getD c 0 ≠ 0) :
    HasDerivAt
      (fun x => Real.log
        ((orderedClasses ((Scalar.running (cuts.set i x)).map (· - score))).getD c 0))
      (∑ j ∈ Ico i cuts.length,
        scoreSlope (orderedClasses ((Scalar.running cuts).map (· - score))) c j)
      cuts[i] := by
  have hnow : cuts.set i cuts[i] = cuts := List.set_getElem_self hi
  have hderiv := hasDerivAt_log_classProbability
    (fun x => (Scalar.running (cuts.set i x)).map (· - score)) (c := c) (n := cuts.length)
    (t := cuts[i]) (d := fun j => if i ≤ j then 1 else 0) (fun x => by simp) (fun j hj => ?_) hc
    (by rwa [hnow])
  · have hIco := sum_scoreSlope_from (orderedClasses ((Scalar.running cuts).map (· - score)))
      cuts.length c i
    rw [hnow] at hderiv
    exact hderiv.congr_deriv hIco.symm
  · have hscore (x : ℝ) : ((Scalar.running (cuts.set i x)).map (· - score)).getD j 0 =
        ((cuts.take (j + 1)).set i x).sum - score := by
      have hlt : j < (cuts.set i x).length := by simpa
      rw [List.getD_eq_getElem?_getD, List.getElem?_map, Scalar.getElem?_running hlt,
        List.take_set]
      rfl
    have hfirst : i < (cuts.take (j + 1)).length ↔ i ≤ j := by
      rw [List.length_take]
      omega
    simp only [hscore, List.sum_set', hfirst]
    refine ((HasDerivAt.const_add _ ?_).sub_const score)
    split
    · exact (hasDerivAt_id _).const_add _
    · exact hasDerivAt_const _ _

/-- The log-likelihood changes with a parameter by all slopes together, times
the negated feature. -/
theorem hasDerivAt_of_parameter {thresholds : List ℝ} (score feature parameter : ℝ) {c : Nat}
    (hc : c ≤ thresholds.length)
    (hp : (orderedClasses (thresholds.map (· - (score + parameter * feature)))).getD c 0 ≠ 0) :
    HasDerivAt
      (fun x => Real.log
        ((orderedClasses (thresholds.map (· - (score + x * feature)))).getD c 0))
      (-feature * ∑ j ∈ Ico 0 thresholds.length,
        scoreSlope (orderedClasses (thresholds.map (· - (score + parameter * feature)))) c j)
      parameter := by
  have hderiv := hasDerivAt_log_classProbability
    (fun x => thresholds.map (· - (score + x * feature))) (n := thresholds.length)
    (t := parameter) (d := fun _ => -feature) (fun x => List.length_map _) (fun j hj => ?_) hc hp
  · rwa [← Finset.sum_mul, mul_comm, Finset.range_eq_Ico] at hderiv
  · have hscore (x : ℝ) : (thresholds.map (· - (score + x * feature))).getD j 0 =
        thresholds[j] - (score + x * feature) := by
      rw [List.getD_eq_getElem _ _ (by simpa), List.getElem_map]
    simp only [hscore]
    exact ((((hasDerivAt_id parameter).mul_const feature).const_add score).const_sub _).congr_deriv
      (by rw [one_mul])

end Hypothesis

end Derivatives

/-! ## Steps -/

namespace Gradient

variable {g : Gradient K} {y : Numeral K} {cuts scores prediction : List K} {c : Nat} {lr : K}

/-- All of the probability lies below the upper end of the last class. -/
theorem slope_of_last (hcount : prediction.length = c + 1) (htotal : prediction.sum = 1) :
    slope (prediction.take (c + 1)).sum = 0 := by
  rw [List.take_of_length_le hcount.le, htotal, slope, sub_self, mul_zero]

/-- The slopes by all scores together are the residual with its sign turned. -/
theorem sum_scoreSlope_eq_residual (hcount : prediction.length = cuts.length + 1)
    (htotal : prediction.sum = 1) (hname : c = y.label) (hc : c ≤ cuts.length) :
    ∑ j ∈ Ico 0 cuts.length, Hypothesis.scoreSlope prediction c j =
      -Hypothesis.residual .ordinal y prediction 0 := by
  have habove : (if 0 ≤ c ∧ c < cuts.length then slope (prediction.take (c + 1)).sum else 0) =
      slope (prediction.take (c + 1)).sum := by
    by_cases hlt : c < cuts.length
    · rw [if_pos ⟨c.zero_le, hlt⟩]
    · rw [if_neg fun h => hlt h.2, slope_of_last (by omega) htotal]
  have hbelow : (if 0 < c then slope (prediction.take c).sum else 0) =
      slope (prediction.take c).sum := by
    split
    · rfl
    · next h => rw [Nat.eq_zero_of_not_pos h, List.take_zero, List.sum_nil, slope, zero_mul]
  rw [Hypothesis.sum_scoreSlope_Ico prediction hc, habove, hbelow, Hypothesis.residual, ← hname,
    ← neg_div, neg_sub]

/-- The step of an increment is the sum of the slopes from it on, less the
penalty times the increment. -/
theorem cutSteps_eq (hrule : g.rule = .ordinal) (hlr : g.rate.vectorFactor = .ok lr)
    (hlength : scores.length = cuts.length)
    (hprediction : g.hypothesis.predict scores = .ok prediction)
    (hcount : prediction.length = cuts.length + 1) (htotal : prediction.sum = 1)
    (hlabel : Outcome.whole y = .ok (c : Int)) (hc : c ≤ cuts.length)
    {penalty : Setting K} {lam : K} (hlam : penalty.vectorFactor = .ok lam) :
    g.cutSteps y cuts scores penalty = .ok (cuts.mapIdx fun i cut =>
      lr * ((∑ j ∈ Ico i cuts.length, Hypothesis.scoreSlope prediction c j) - lam * cut)) := by
  have hinside : c < prediction.length := by omega
  have hknown : ¬ (c ≠ scores.length && cuts.length ≤ c) = true := by
    rw [Bool.and_eq_true, decide_eq_true_iff, decide_eq_true_iff]
    omega
  rw [cutSteps, hrule]
  dsimp only
  rw [hprediction, Outcome.bind_ok, labelIn_of_whole hlabel hinside, Outcome.bind_ok,
    Outcome.nth_of_lt hinside, Outcome.bind_ok, slopesAround_of_lt hinside, Outcome.bind_ok]
  dsimp only
  rw [if_neg hknown, hlam, hlr]
  show Except.ok _ = Except.ok _
  congr 1
  refine List.ext_getElem (by simp) fun i hi _ => ?_
  rw [List.length_mapIdx] at hi
  rw [List.getElem_mapIdx, List.getElem_mapIdx, Hypothesis.sum_scoreSlope_Ico prediction hc,
    List.getD_eq_getElem _ _ hinside]
  congr 2
  by_cases hic : i < c
  · rw [if_pos hic, if_pos hic]
    by_cases hlt : c < cuts.length
    · rw [if_pos ⟨hic.le, hlt⟩]
    · rw [if_neg fun h => hlt h.2, slope_of_last (by omega) htotal]
  · rw [if_neg hic, if_neg hic, sub_zero]
    by_cases heq : i = c
    · have hends : (i = c && c ≠ scores.length : Bool) = true := by
        rw [Bool.and_eq_true, decide_eq_true_iff, decide_eq_true_iff]
        omega
      rw [if_pos hends, if_pos (by omega)]
    · have hends : ¬ (i = c && c ≠ scores.length : Bool) = true := by
        rw [Bool.and_eq_true, decide_eq_true_iff]
        exact fun h => heq h.1
      rw [if_neg hends, if_neg (by omega), zero_div]

/-- Without a penalty, the step of a parameter away from the intercept is the
negated feature times the sum of all slopes. -/
theorem steps_eq (hrule : g.rule = .ordinal) (hlr : g.rate.factor = .ok lr)
    (hcount : prediction.length = cuts.length + 1) (htotal : prediction.sum = 1)
    (hlabel : Outcome.whole y = .ok (c : Int)) (hc : c ≤ cuts.length)
    {free : Setting K} (hfree : free.factor = .ok 0) {k : Nat} (hk : k ≠ 0)
    {parameter feature : Vec K} {parameters others : Family K} {features : Features K}
    (hfeatures : features.forClasses (parameter :: parameters).length = .ok (feature :: others))
    {x p : K} (hx : feature.get k = .ok x) (hp : parameter.get k = .ok p) :
    g.steps k y (parameter :: parameters) features prediction free =
      .ok [-x * (lr * ∑ j ∈ Ico 0 cuts.length, Hypothesis.scoreSlope prediction c j)] := by
  have hinside : c < prediction.length := by omega
  have hin := labelIn_of_whole hlabel hinside
  rw [steps_ordinal hrule hin hfeatures hk, hx, Outcome.bind_ok, hp, Outcome.bind_ok, hfree,
    Outcome.bind_ok, hlr, Outcome.bind_ok,
    sum_scoreSlope_eq_residual hcount htotal (labelIn_eq_ok hin).1 hc]
  show Except.ok [_] = Except.ok [_]
  congr 2
  ring

end Gradient

/-- The steps of ordered classes are the chain rule through the sums of the
probabilities.  Every class has a step of the increments, in which an increment
collects the slopes by all scores from its own on, and without a penalty the
step of a parameter is the negated feature times that of the first increment.

The probability of the class may even be zero: the quotients by it are zero in
both steps then. -/
theorem threshold_steps_are_chain_rule {g : Gradient K} (hrule : g.rule = .ordinal)
    (hkind : g.hypothesis = .ordinal) {lr : K} (hlr : g.rate.factor = .ok lr)
    {cuts scores : List K} (hcuts : cuts ≠ []) (hscores : scores.length = cuts.length)
    {y : Numeral K} {c : Nat} (hlabel : Outcome.whole y = .ok (c : Int)) (hc : c ≤ cuts.length) :
    ∃ prediction, g.hypothesis.predict scores = .ok prediction ∧
      prediction.length = cuts.length + 1 ∧
      (∀ penalty lam, penalty.factor = .ok lam →
        g.cutSteps y cuts scores penalty = .ok (cuts.mapIdx fun i cut =>
          lr * ((∑ j ∈ Ico i cuts.length, Hypothesis.scoreSlope prediction c j) - lam * cut))) ∧
      ∀ free, free.factor = .ok 0 → ∃ first rest,
        g.cutSteps y cuts scores free = .ok (first :: rest) ∧
        ∀ (k : Nat) (parameter feature : Vec K) (parameters others : Family K)
          (features : Features K) (p x : K), 1 ≤ k →
          features.forClasses (parameter :: parameters).length = .ok (feature :: others) →
          parameter.get k = .ok p → feature.get k = .ok x →
          g.steps k y (parameter :: parameters) features prediction free = .ok [-x * first] := by
  have hpredict : g.hypothesis.predict scores = .ok (Hypothesis.orderedClasses scores) := by
    rw [hkind]
    rfl
  have hcount : (Hypothesis.orderedClasses scores).length = cuts.length + 1 := by
    rw [Hypothesis.length_orderedClasses, hscores]
  have htotal := Hypothesis.sum_orderedClasses scores
  have hcutSteps (penalty : Setting K) (lam : K) (hlam : penalty.factor = .ok lam) :=
    Gradient.cutSteps_eq hrule (Setting.vectorFactor_of_factor hlr) hscores hpredict hcount htotal
      hlabel hc (Setting.vectorFactor_of_factor hlam)
  refine ⟨_, hpredict, hcount, hcutSteps, fun free hfree => ?_⟩
  obtain ⟨cut, increments, rfl⟩ := List.exists_cons_of_ne_nil hcuts
  have hsteps := hcutSteps free 0 hfree
  rw [List.mapIdx_cons, zero_mul, sub_zero] at hsteps
  refine ⟨_, _, hsteps, ?_⟩
  intro k parameter feature parameters others features p x hk hfeatures hp hx
  exact Gradient.steps_eq hrule hlr hcount htotal hlabel hc hfree (Nat.one_le_iff_ne_zero.1 hk)
    hfeatures hx hp

/-- Three classes of rational numbers, with the middle one observed. -/
theorem threshold_steps_are_chain_rule_rational :
    let g : Gradient ℚ := .ofHypothesis .ordinal (.ofInt 1)
    (g.rule = .ordinal ∧ g.hypothesis = .ordinal ∧ g.rate.factor = .ok 1 ∧
      Outcome.whole (.integer 1 : Numeral ℚ) = .ok (1 : Nat)) ∧
    g.hypothesis.predict [0, 1] = (.ok [1 / 2, 1 / 6, 1 / 3] : Outcome ℚ _) ∧
    g.cutSteps (.integer 1) [0, 1] [0, 1] (.ofInt 0) = .ok [-(1 / 6), 4 / 3] ∧
    g.steps (2 : Nat) (.integer 1) [.dense #[0, 0, 0]] (.shared (.dense #[1, 0, 2]))
      [1 / 2, 1 / 6, 1 / 3] (.ofInt 0) = .ok [1 / 3] := by
  have hpredict : Hypothesis.ordinal.predict [0, 1] =
      (.ok [1 / 2, 1 / 6, 1 / 3] : Outcome ℚ _) := by
    decide +kernel
  have hrate : (Setting.ofInt 1 : Setting ℚ).factor = .ok 1 := by decide +kernel
  have hfree : (Setting.ofInt 0 : Setting ℚ).factor = .ok 0 := by decide +kernel
  have hcuts : ([0, 1] : List ℚ) ≠ [] := List.cons_ne_nil _ _
  have hscores : ([0, 1] : List ℚ).length = ([0, 1] : List ℚ).length := rfl
  obtain ⟨prediction, hprediction, -, -, hsame⟩ := threshold_steps_are_chain_rule
    (g := Gradient.ofHypothesis .ordinal (.ofInt 1)) rfl rfl hrate hcuts hscores
    (y := .integer 1) (c := 1) rfl (by decide)
  obtain rfl : prediction = [1 / 2, 1 / 6, 1 / 3] :=
    Except.ok.inj (hprediction.symm.trans hpredict)
  obtain ⟨first, rest, hcuts, hsteps⟩ := hsame (.ofInt 0) hfree
  have hvalue : (Gradient.ofHypothesis .ordinal (.ofInt 1)).cutSteps (.integer 1) [0, 1] [0, 1]
      (.ofInt 0) = (.ok [-(1 / 6), 4 / 3] : Outcome ℚ _) := by
    decide +kernel
  obtain ⟨rfl, -⟩ := List.cons.inj (Except.ok.inj (hcuts.symm.trans hvalue))
  refine ⟨⟨rfl, rfl, hrate, rfl⟩, hpredict, hvalue, ?_⟩
  rw [hsteps 2 (.dense #[0, 0, 0]) (.dense #[1, 0, 2]) [] [] (.shared (.dense #[1, 0, 2])) 0 2
    (by decide) rfl rfl rfl]
  decide +kernel

end LatentFactors
