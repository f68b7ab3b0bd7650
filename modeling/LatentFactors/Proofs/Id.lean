import Mathlib.Algebra.Order.Field.Rat
import Mathlib.Algebra.Order.Field.Power
import Mathlib.Data.List.Lex
import Mathlib.Data.Prod.Lex
import Mathlib.Data.String.Basic
import Mathlib.Tactic.Positivity
import LatentFactors.Id

/-!
# The order of names

Names are compared by where they stand (`Id.position`): numbers by value, before what is
neither a number nor a text, before texts by code point.  Lists of names are compared by
the first place at which their names stand differently.  Both orders are read off
linear orders (`Id.atMost_iff` and `Id.listAtMost_iff`), so they are total and
transitive.
-/

namespace LatentFactors

namespace Decimal.Signed

/-- The number that a decimal stands for. -/
def value (x : Signed) : ℚ :=
  (if x.negative then -1 else 1) * x.mantissa * 10 ^ x.power

theorem scaled_eq (x : Signed) {shift : Int} (h : -x.power ≤ shift) :
    (x.scaled shift : ℚ) = x.value * 10 ^ shift := by
  have hten : (10 : ℚ) ≠ 0 := by norm_num
  have hpower : (10 : ℚ) ^ (x.power + shift).toNat = 10 ^ x.power * 10 ^ shift := by
    rw [← zpow_add₀ hten, ← zpow_natCast, Int.toNat_of_nonneg (by omega)]
  rw [scaled, value]
  split
  · push_cast
    rw [Nat.pow_eq, Nat.cast_pow, Nat.cast_ofNat, hpower, neg_one_mul, ← mul_assoc, neg_mul,
      neg_mul]
  · push_cast
    rw [Nat.pow_eq, Nat.cast_pow, Nat.cast_ofNat, hpower, one_mul, mul_assoc]

/-- Decimals are compared by value. -/
theorem atMost_iff (x y : Signed) : x.atMost y = true ↔ x.value ≤ y.value := by
  have hpos : (0 : ℚ) < 10 ^ max (-x.power) (-y.power) := by positivity
  rw [atMost, decide_eq_true_eq, ← Int.cast_le (R := ℚ), scaled_eq x (le_max_left ..),
    scaled_eq y (le_max_right ..), mul_le_mul_iff_left₀ hpos]

end Decimal.Signed

namespace Id

/-- Where a name stands: numbers by value, then what is neither a number nor a text, then
texts. -/
def position (a : Id) : ℕ ×ₗ ℚ ×ₗ String :=
  match a.name.number?, a.name.text? with
  | some x, _ => toLex (0, toLex (x.value, ""))
  | none, none => toLex (1, toLex (0, ""))
  | none, some s => toLex (2, toLex (0, s))

theorem atMost_iff (a b : Id) : a.atMost b = true ↔ a.position ≤ b.position := by
  rw [atMost, position, position]
  cases a.name.number? with
  | some x =>
    cases b.name.number? with
    | some y =>
      simp [Prod.Lex.toLex_le_toLex, Decimal.Signed.atMost_iff, le_iff_lt_or_eq (a := x.value)]
    | none => cases b.name.text? <;> simp [Prod.Lex.toLex_le_toLex]
  | none =>
    cases b.name.number? with
    | some y => cases a.name.text? <;> simp [Prod.Lex.toLex_le_toLex]
    | none =>
      cases a.name.text? with
      | none => cases b.name.text? <;> simp [Prod.Lex.toLex_le_toLex]
      | some s =>
        cases b.name.text? with
        | none => simp [Prod.Lex.toLex_le_toLex]
        | some t =>
          simp only [Bool.not_eq_true', decide_eq_false_iff_not, not_lt]
          simp [Prod.Lex.toLex_le_toLex]

theorem listAtMost_iff (as bs : List Id) :
    listAtMost as bs = true ↔ as.map position ≤ bs.map position := by
  induction as generalizing bs with
  | nil => exact iff_of_true rfl (not_lt.1 (List.not_lt_nil _))
  | cons a as ih =>
    cases bs with
    | nil => exact iff_of_false nofun (not_le.2 (List.nil_lt_cons ..))
    | cons b bs =>
      have hlists : a.position :: as.map position ≤ b.position :: bs.map position ↔
          ¬(b.position < a.position ∨
            b.position = a.position ∧ bs.map position < as.map position) := by
        rw [← not_lt, List.cons_lt_cons_iff]
      rw [listAtMost, Bool.and_eq_true, Bool.or_eq_true, Bool.not_eq_true', ← Bool.not_eq_true,
        atMost_iff, atMost_iff, ih, List.map_cons, List.map_cons, hlists, not_or, not_lt, not_and,
        not_lt]
      refine and_congr_right fun hle => ?_
      have hback : b.position ≤ a.position ↔ b.position = a.position :=
        ⟨fun h => h.antisymm hle, fun h => h.le⟩
      rw [hback, imp_iff_not_or]

theorem listAtMost_total (as bs : List Id) : (listAtMost as bs || listAtMost bs as) = true := by
  rw [Bool.or_eq_true, listAtMost_iff, listAtMost_iff]
  exact le_total _ _

theorem listAtMost_trans (as bs cs : List Id) (h : listAtMost as bs = true)
    (h' : listAtMost bs cs = true) : listAtMost as cs = true := by
  rw [listAtMost_iff] at h h' ⊢
  exact h.trans h'

end Id

end LatentFactors
