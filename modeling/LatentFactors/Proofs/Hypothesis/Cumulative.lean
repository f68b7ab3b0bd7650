import LatentFactors.Proofs.Arithmetic.Rational
import LatentFactors.Proofs.Hypothesis.Counts

/-!
# Cumulative probabilities

The prediction for ordered classes holds the differences of cumulative probabilities, with
a zero in front of them and a one behind.  Its running sums give the cumulative
probabilities back (`Hypothesis.running_classProbabilities`), whether they rise or not.

A difference is negative exactly where the cumulative probabilities fall, so a prediction
has no negative entry exactly when they do not fall
(`Hypothesis.nonneg_classProbabilities_iff`).
-/

namespace LatentFactors

variable {K : Type} [ExactScalar K]

theorem Scalar.running_eq_runningFrom_zero (xs : List K) : running xs = runningFrom 0 xs := by
  cases xs with
  | nil => rfl
  | cons x xs => rw [running, runningFrom, zero_add]

namespace Hypothesis

/-! ## Differences of neighbours -/

private theorem runningFrom_differences_aux (cumulative : List K) (low high : K) :
    Scalar.runningFrom low
      (List.zipWith (· - ·) (cumulative ++ [high]) (low :: cumulative)) =
        cumulative ++ [high] := by
  induction cumulative generalizing low with
  | nil =>
    show [low + (high - low)] = [high]
    rw [add_sub_cancel]
  | cons x rest ih =>
    have hx : low + (x - low) = x := add_sub_cancel low x
    rw [List.cons_append, List.zipWith_cons_cons, Scalar.runningFrom, hx, ih x]

private theorem nonneg_differences_aux (cumulative : List K) (low high : K) :
    (∀ p ∈ List.zipWith (· - ·) (cumulative ++ [high]) (low :: cumulative), 0 ≤ p) ↔
      (low :: (cumulative ++ [high])).IsChain (· ≤ ·) := by
  induction cumulative generalizing low with
  | nil =>
    show (∀ p ∈ [high - low], 0 ≤ p) ↔ [low, high].IsChain (· ≤ ·)
    simp
  | cons x rest ih =>
    rw [List.cons_append, List.zipWith_cons_cons, List.forall_mem_cons, sub_nonneg, ih x,
      List.isChain_cons_cons]

/-- The running sums of a prediction for ordered classes are the cumulative probabilities
that it was made from, and one. -/
theorem running_classProbabilities (cumulative : List K) :
    Scalar.running (classProbabilities cumulative) = cumulative ++ [1] := by
  rw [Scalar.running_eq_runningFrom_zero, classProbabilities, runningFrom_differences_aux]

/-- Between zero and one, cumulative probabilities that do not fall are those without a
negative difference. -/
theorem nonneg_classProbabilities_iff {cumulative : List K}
    (h : ∀ p ∈ cumulative, 0 ≤ p ∧ p ≤ 1) :
    (∀ p ∈ classProbabilities cumulative, 0 ≤ p) ↔ cumulative.Pairwise (· ≤ ·) := by
  have hlow : ∀ p ∈ cumulative ++ [1], (0 : K) ≤ p := by
    intro p hp
    rcases List.mem_append.1 hp with hp | hp
    · exact (h p hp).1
    · rw [List.mem_singleton.1 hp]
      exact zero_le_one
  have hhigh : ∀ p ∈ cumulative, ∀ q ∈ [(1 : K)], p ≤ q := by
    intro p hp q hq
    rw [List.mem_singleton.1 hq]
    exact (h p hp).2
  rw [classProbabilities, nonneg_differences_aux, List.isChain_iff_pairwise,
    List.pairwise_cons, List.pairwise_append]
  constructor
  · rintro ⟨-, hrising, -, -⟩
    exact hrising
  · intro hrising
    exact ⟨hlow, hrising, List.pairwise_singleton _ _, hhigh⟩

end Hypothesis

/-! ## Predictions and their running sums -/

/-- Whatever the scores of ordered classes are, they have a prediction with one more entry,
its running sums are the values of the link and one, and it has no negative entry exactly
when the values of the link do not fall. -/
theorem cumulative_probabilities_come_back
    (hlink : ∀ x : K, 0 < Scalar.expit x ∧ Scalar.expit x < 1)
    (scores : List K) :
    ∃ prediction, Hypothesis.ordinal.predict scores = .ok prediction ∧
      prediction.length = scores.length + 1 ∧
      Scalar.running prediction = scores.map Scalar.expit ++ [1] ∧
      ((∀ p ∈ prediction, 0 ≤ p) ↔ (scores.map Scalar.expit).Pairwise (· ≤ ·)) := by
  have hinside : ∀ p ∈ scores.map Scalar.expit, (0 : K) ≤ p ∧ p ≤ 1 := by
    intro p hp
    obtain ⟨x, -, rfl⟩ := List.mem_map.1 hp
    exact ⟨(hlink x).1.le, (hlink x).2.le⟩
  refine ⟨Hypothesis.classProbabilities (scores.map Scalar.expit), rfl, ?_, ?_, ?_⟩
  · rw [Hypothesis.length_classProbabilities, List.length_map]
  · exact Hypothesis.running_classProbabilities _
  · exact Hypothesis.nonneg_classProbabilities_iff hinside

/-- Falling scores: the running sums come back all the same, and the class between them has
a negative entry. -/
theorem cumulative_probabilities_come_back_falling :
    (∀ x : ℚ, 0 < Scalar.expit x ∧ Scalar.expit x < 1) ∧
      ∃ prediction, Hypothesis.ordinal.predict [(1 : ℚ), -1] = .ok prediction ∧
        prediction.length = 3 ∧ Scalar.running prediction = [2 / 3, 1 / 3, 1] ∧
        ¬ ∀ p ∈ prediction, 0 ≤ p := by
  have hlink (x : ℚ) : 0 < Scalar.expit x ∧ Scalar.expit x < 1 :=
    ⟨linkLaws_rational.expit_pos x, linkLaws_rational.expit_lt_one x⟩
  have hvalues : [(1 : ℚ), -1].map Scalar.expit = [2 / 3, 1 / 3] := by decide +kernel
  obtain ⟨prediction, hprediction, hlength, hrunning, hnonneg⟩ :=
    cumulative_probabilities_come_back hlink [(1 : ℚ), -1]
  rw [hvalues] at hrunning hnonneg
  refine ⟨hlink, prediction, hprediction, hlength, hrunning, ?_⟩
  rw [hnonneg]
  decide +kernel

end LatentFactors
