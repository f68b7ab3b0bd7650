import Mathlib.Data.List.GetD
import Mathlib.Tactic.IntervalCases
import Mathlib.Tactic.Linarith
import LatentFactors.Proofs.Arithmetic.Rational
import LatentFactors.Proofs.Gradient.ClosedForm
import LatentFactors.Proofs.Hypothesis.Distribution

/-!
# The steps of ordered classes are bounded

The step of ordered classes divides by the probability of the observed class,
which may be as small as it likes.  The quotient does not mind: the slopes at the
two ends of a class differ by a multiple of its probability, and what is left is
the imbalance of the prediction around the class.

* `Hypothesis.residual_ordinal`: the residual of ordered classes is their
  imbalance.
* `Hypothesis.abs_imbalance_lt_one`: no imbalance of a distribution reaches one.
* `Hypothesis.imbalance_of_two`: with two classes it is the error of a binary
  response.
* `ordinal_step_is_bounded` says what follows for the steps.
-/

namespace LatentFactors

variable {K : Type} [ExactScalar K]

/-! ## Sums of a distribution -/

namespace IsDistribution

variable {p : List K} (hp : IsDistribution p)
include hp

theorem sum_take_nonneg (c : Nat) : 0 ≤ (p.take c).sum :=
  List.sum_nonneg fun x hx => (hp.pos x (List.mem_of_mem_take hx)).le

theorem sum_take_le_one (c : Nat) : (p.take c).sum ≤ 1 := by
  have hrest : 0 ≤ (p.drop c).sum :=
    List.sum_nonneg fun x hx => (hp.pos x (List.mem_of_mem_drop hx)).le
  have hall : (p.take c).sum + (p.drop c).sum = 1 := by
    rw [← List.sum_append, List.take_append_drop, hp.sum]
  linarith

end IsDistribution

namespace Hypothesis

/-! ## Imbalance -/

/-- The probability below a class less the probability above it, by the sums of
the probabilities up to its two ends. -/
def imbalance (p : List K) (c : Nat) : K := (p.take (c + 1)).sum + (p.take c).sum - 1

/-- The slopes at the ends of a class differ by its probability times its
imbalance, so the residual of ordered classes is the imbalance. -/
theorem residual_ordinal {y : Numeral K} {p : List K} (hc : y.label < p.length)
    (hpos : p[y.label] ≠ 0) (i : Nat) : residual .ordinal y p i = imbalance p y.label := by
  have hend : (p.take (y.label + 1)).sum = (p.take y.label).sum + p[y.label] :=
    List.sum_take_succ p _ hc
  have hslopes : Gradient.slope (p.take y.label).sum - Gradient.slope (p.take (y.label + 1)).sum =
      p[y.label] * imbalance p y.label := by
    rw [imbalance, Gradient.slope, Gradient.slope, hend]
    ring
  rw [residual, hslopes, List.getD_eq_getElem _ _ hc, mul_div_cancel_left₀ _ hpos]

theorem abs_imbalance_lt_one {p : List K} (hp : IsDistribution p) {c : Nat} (hc : c < p.length) :
    |imbalance p c| < 1 := by
  have hend : (p.take (c + 1)).sum = (p.take c).sum + p[c] := List.sum_take_succ p _ hc
  have hclass : 0 < p[c] := hp.pos _ (List.getElem_mem hc)
  have hbelow := hp.sum_take_nonneg c
  have habove := hp.sum_take_le_one (c + 1)
  rw [imbalance, abs_lt]
  constructor <;> linarith

/-- With two classes the imbalance is the indicator of the second one less its
probability. -/
theorem imbalance_of_two {p : List K} (hp : IsDistribution p) (hcount : p.length = 2) {c : Nat}
    (hc : c < p.length) : imbalance p c = c - p.getD 1 0 := by
  obtain ⟨first, second, rfl⟩ := List.length_eq_two.1 hcount
  have hsum : first + second = 1 := by simpa using hp.sum
  rw [hcount] at hc
  interval_cases c
  · simp [imbalance, ← hsum]
  · simp [imbalance, hsum, ← eq_sub_iff_add_eq.2 hsum]

end Hypothesis

/-! ## Steps -/

/-- Every distribution of ordered classes gives steps that are bounded by the
step size, and those of two classes are the steps of a binary response.

Away from the intercept the feature is weighted by the imbalance around the
observed class.  This is smaller than one, however small the probability of the
class is, so without its penalty a step that can move at all moves by less than the
learning rate times the feature.  With two classes the step is the one by the
default rule for the same target and the probability of the second class, up to the
fault where a rate, a penalty or an entry is missing. -/
theorem ordinal_step_is_bounded {g : Gradient K} (hrule : g.rule = .ordinal) {p : List K}
    (hp : IsDistribution p) {y : Numeral K} {c : Nat} (hlabel : Outcome.whole y = .ok (c : Int))
    (hc : c < p.length) :
    (∀ (k : Nat) (parameter feature : Vec K) (parameters others : Family K)
        (features : Features K) (penalty : Setting K) (lr lam θ x : K),
      1 ≤ k → features.forClasses (parameter :: parameters).length = .ok (feature :: others) →
      parameter.get k = .ok θ → feature.get k = .ok x → penalty.factor = .ok lam →
      g.rate.factor = .ok lr →
      g.steps k y (parameter :: parameters) features p penalty =
          .ok [lr * (x * ((p.take (c + 1)).sum + (p.take c).sum - 1) - lam * θ)] ∧
        (lr * x ≠ 0 → |lr * (x * ((p.take (c + 1)).sum + (p.take c).sum - 1))| < |lr * x|)) ∧
    (p.length = 2 → ∀ g' : Gradient K, g'.rule = .default → g'.rate = g.rate →
      ∀ (k : Nat) (parameter : Vec K) (features : Features K) (penalty : Setting K)
        (target : Numeral K), 1 ≤ k → target.value = c →
        g.steps k y [parameter] features p penalty =
          g'.steps k target [parameter] features [p.getD 1 0] penalty) := by
  have hin := Gradient.labelIn_of_whole hlabel hc
  obtain ⟨hname, -⟩ := Gradient.labelIn_eq_ok hin
  have hresidual : Hypothesis.residual .ordinal y p 0 = Hypothesis.imbalance p c := by
    subst hname
    exact Hypothesis.residual_ordinal hc (hp.pos _ (List.getElem_mem hc)).ne' 0
  constructor
  · intro k parameter feature parameters others features penalty lr lam θ x hk hfeatures hθ hx
      hlam hlr
    constructor
    · rw [Gradient.steps_ordinal hrule hin hfeatures (Nat.one_le_iff_ne_zero.1 hk), hx,
        Outcome.bind_ok, hθ, Outcome.bind_ok, hlam, Outcome.bind_ok, hlr, Outcome.bind_ok,
        hresidual]
      rfl
    · intro hmoves
      calc |lr * (x * Hypothesis.imbalance p c)|
          = |lr * x| * |Hypothesis.imbalance p c| := by rw [← mul_assoc, abs_mul]
        _ < |lr * x| * 1 :=
          mul_lt_mul_of_pos_left (Hypothesis.abs_imbalance_lt_one hp hc) (abs_pos.2 hmoves)
        _ = |lr * x| := mul_one _
  · intro hcount g' hrule' hrate k parameter features penalty target hk htarget
    have hk' : k ≠ 0 := Nat.one_le_iff_ne_zero.1 hk
    cases hfeatures : features.forClasses [parameter].length with
    | error e =>
      rw [Gradient.steps, Gradient.steps, hfeatures, Outcome.bind_error, Outcome.bind_error]
    | ok fs =>
      obtain ⟨feature, rfl⟩ := List.length_eq_one_iff.1 (Features.length_of_forClasses hfeatures)
      rw [Gradient.steps_ordinal hrule hin hfeatures hk',
        Gradient.steps_default hrule' hfeatures hk', hresidual,
        Hypothesis.imbalance_of_two hp hcount hc, htarget, hrate]

/-- Rational numbers: the middle one of three classes, and the second one of two. -/
theorem ordinal_step_is_bounded_rational :
    let g : Gradient ℚ := .ofHypothesis .ordinal (.ofInt 3)
    let parameter : Vec ℚ := .dense #[0, 0, 2]
    let features : Features ℚ := .shared (.dense #[1, 0, 5])
    (g.rule = .ordinal ∧ Outcome.whole (.integer 1 : Numeral ℚ) = .ok (1 : Nat) ∧
      IsDistribution [(1 / 2 : ℚ), 1 / 6, 1 / 3] ∧ IsDistribution [(1 / 4 : ℚ), 3 / 4]) ∧
    g.steps (2 : Nat) (.integer 1) [parameter] features [1 / 2, 1 / 6, 1 / 3] (.ofInt 1) =
      .ok [-7 / 2] ∧ |(3 * (5 * (2 / 3 + 1 / 2 - 1)) : ℚ)| < |3 * 5| ∧
    g.steps (2 : Nat) (.integer 1) [parameter] features [1 / 4, 3 / 4] (.ofInt 1) =
      (Gradient.ofHypothesis .logistic (.ofInt 3)).steps (2 : Nat) (.integer 1) [parameter] features
        [3 / 4] (.ofInt 1) := by
  intro g parameter features
  have hthree : IsDistribution [(1 / 2 : ℚ), 1 / 6, 1 / 3] := ⟨by decide +kernel, by decide +kernel⟩
  have htwo : IsDistribution [(1 / 4 : ℚ), 3 / 4] := ⟨by decide +kernel, by decide +kernel⟩
  have hlabel : Outcome.whole (.integer 1 : Numeral ℚ) = .ok ((1 : Nat) : Int) := rfl
  obtain ⟨hstep, hbound⟩ := (ordinal_step_is_bounded (g := g) rfl hthree hlabel (by decide)).1
    2 parameter (.dense #[1, 0, 5]) [] [] features (.ofInt 1) 3 1 2 5 (by decide) rfl rfl rfl
    (by decide +kernel) (by decide +kernel)
  refine ⟨⟨rfl, hlabel, hthree, htwo⟩, hstep.trans (by decide +kernel), ?_, ?_⟩
  · have hsums : (([1 / 2, 1 / 6, 1 / 3] : List ℚ).take (1 + 1)).sum = 2 / 3 ∧
        (([1 / 2, 1 / 6, 1 / 3] : List ℚ).take 1).sum = 1 / 2 := by
      decide +kernel
    rw [hsums.1, hsums.2] at hbound
    exact hbound (by decide +kernel)
  · exact (ordinal_step_is_bounded (g := g) rfl htwo hlabel (by decide)).2 rfl
      (.ofHypothesis .logistic (.ofInt 3)) rfl rfl 2 parameter features (.ofInt 1) (.integer 1)
      (by decide) (by decide +kernel)

end LatentFactors
