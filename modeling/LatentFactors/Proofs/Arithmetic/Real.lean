import Mathlib.Analysis.SpecialFunctions.Sigmoid
import LatentFactors.Proofs.Arithmetic.Rational

/-!
# Real numbers

The real numbers with the exponential, the logistic and the square root
functions are an exact arithmetic with the laws of the links.  Those that are
rational are spelled as fractions, and the others are not told apart.
-/

namespace LatentFactors

open Classical in
/-- A real number in digits, if it is a fraction. -/
noncomputable def realText (x : ℝ) : String :=
  if h : ∃ q : ℚ, (q : ℝ) = x then fractionText h.choose else ""

theorem realText_ratCast (q : ℚ) : realText q = fractionText q := by
  have h : ∃ p : ℚ, (p : ℝ) = q := ⟨q, rfl⟩
  rw [realText, dif_pos h, Rat.cast_injective h.choose_spec]

/-- Exact arithmetic on the real numbers. -/
noncomputable instance : ExactScalar ℝ where
  __ := (inferInstance : Field ℝ)
  __ := (inferInstance : LinearOrder ℝ)
  __ := (inferInstance : IsStrictOrderedRing ℝ)
  less x y := decide (x < y)
  atMost x y := decide (x ≤ y)
  equals x y := decide (x = y)
  undefined := 0
  isUndefined _ := false
  ofInt n := n
  inRange _ := true
  decimal m p := m / 10 ^ p
  truncate x := .ok (if 0 ≤ x then ⌊x⌋ else ⌈x⌉)
  exp := Real.exp
  log := Real.log
  expit := Real.sigmoid
  sqrt := Real.sqrt
  spell := realText
  read _ := none
  less_iff x y := decide_eq_true_iff
  atMost_iff x y := decide_eq_true_iff
  equals_iff x y := decide_eq_true_iff
  isUndefined_eq _ := rfl
  ofInt_eq _ := rfl
  inRange_eq _ := rfl
  decimal_eq _ _ := rfl
  truncate_intCast n := by simp
  truncate_ne_undefined _ := nofun
  spell_ratCast_injective p q h := by
    rw [realText_ratCast, realText_ratCast] at h
    exact fractionText_injective h

/-- The links of the real numbers have the laws. -/
theorem linkLaws_real : LinkLaws ℝ where
  expit_strictMono := Real.sigmoid_strictMono
  expit_pos := Real.sigmoid_pos
  expit_lt_one := Real.sigmoid_lt_one
  exp_pos := Real.exp_pos

end LatentFactors
