import Mathlib.Algebra.Order.Field.Rat
import Mathlib.Data.List.Basic
import Mathlib.Data.Rat.Floor
import Mathlib.Tactic.Linarith
import LatentFactors.Proofs.Arithmetic

/-!
# Rational numbers

The rational numbers are an exact arithmetic in which runs can be evaluated.
They have no exponential function.  A rising curve of two hyperbolas takes its
place, and the logistic function is made from it in the usual way.  There are
no logarithms and roots, and numbers are spelled as fractions.
-/

namespace LatentFactors

/-- A positive rising curve through one at zero: `1 + x` to the right, and its
mirror image `1 / (1 - x)` to the left. -/
def hyperbolicGrowth (x : ℚ) : ℚ := if 0 ≤ x then 1 + x else 1 / (1 - x)

/-- A fraction in digits: its sign, the numerator and the denominator. -/
def fractionText (q : ℚ) : String :=
  String.ofList ((if q.num < 0 then '-' else '+') ::
    (Nat.toDigits 10 q.num.natAbs ++ '/' :: Nat.toDigits 10 q.den))

theorem toDigits_injective : Function.Injective (Nat.toDigits 10) :=
  Function.LeftInverse.injective (g := fun cs => Nat.ofDigitChars 10 cs 0)
    fun _ => Nat.ofDigitChars_ten_toDigits

theorem slash_notMem_toDigits (n : Nat) : '/' ∉ Nat.toDigits 10 n := fun h => by
  have hdigit := Nat.isDigit_of_mem_toDigits (by decide) (by decide) h
  cases hdigit

theorem fractionText_injective : Function.Injective fractionText := by
  intro p q h
  obtain ⟨hsign, hdigits⟩ := List.cons_eq_cons.1 (String.ofList_injective h)
  obtain ⟨hnum, -, hden⟩ := (List.append_cons_inj_of_notMem (slash_notMem_toDigits _)
    (slash_notMem_toDigits _)).1 hdigits
  have hsize : p.num.natAbs = q.num.natAbs := toDigits_injective hnum
  refine Rat.ext ?_ (toDigits_injective hden)
  split_ifs at hsign with hp hq hq
  · omega
  · cases hsign
  · cases hsign
  · omega

/-- Exact arithmetic on the rational numbers. -/
instance : ExactScalar ℚ where
  __ := (inferInstance : Field ℚ)
  __ := (inferInstance : LinearOrder ℚ)
  __ := (inferInstance : IsStrictOrderedRing ℚ)
  less x y := decide (x < y)
  atMost x y := decide (x ≤ y)
  equals x y := decide (x = y)
  undefined := 0
  isUndefined _ := false
  ofInt n := n
  inRange _ := true
  decimal m p := m / 10 ^ p
  truncate x := .ok (if 0 ≤ x then ⌊x⌋ else ⌈x⌉)
  exp := hyperbolicGrowth
  log _ := 0
  expit x := 1 / (1 + hyperbolicGrowth (-x))
  sqrt _ := 0
  spell := fractionText
  read _ := none
  less_iff x y := decide_eq_true_iff
  atMost_iff x y := decide_eq_true_iff
  equals_iff x y := decide_eq_true_iff
  isUndefined_eq _ := rfl
  ofInt_eq _ := rfl
  inRange_eq _ := rfl
  decimal_eq _ _ := rfl
  truncate_intCast n := by simp
  truncate_ne_undefined _ := nofun
  spell_ratCast_injective _ _ h := fractionText_injective h

theorem hyperbolicGrowth_pos (x : ℚ) : 0 < hyperbolicGrowth x := by
  unfold hyperbolicGrowth
  split
  · linarith
  · exact one_div_pos.2 (by linarith)

theorem hyperbolicGrowth_strictMono : StrictMono hyperbolicGrowth := by
  intro x y hxy
  unfold hyperbolicGrowth
  by_cases hx : 0 ≤ x
  · rw [if_pos hx, if_pos (hx.trans hxy.le)]
    linarith
  · rw [if_neg hx]
    have hbelow : 0 < 1 - x := by linarith
    by_cases hy : 0 ≤ y
    · rw [if_pos hy]
      calc 1 / (1 - x) < 1 := (div_lt_one hbelow).2 (by linarith)
        _ ≤ 1 + y := by linarith
    · rw [if_neg hy]
      exact one_div_lt_one_div_of_lt (by linarith) (by linarith)

/-- The links of the rational numbers have the laws. -/
theorem linkLaws_rational : LinkLaws ℚ where
  expit_strictMono x y hxy := by
    have hless := hyperbolicGrowth_strictMono (neg_lt_neg hxy)
    have hpos := hyperbolicGrowth_pos (-y)
    exact one_div_lt_one_div_of_lt (by linarith) (by linarith)
  expit_pos x := one_div_pos.2 (by linarith [hyperbolicGrowth_pos (-x)])
  expit_lt_one x := by
    have hpos := hyperbolicGrowth_pos (-x)
    exact (div_lt_one (by linarith)).2 (by linarith)
  exp_pos := hyperbolicGrowth_pos

end LatentFactors
