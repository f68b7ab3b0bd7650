import Mathlib.Algebra.Order.BigOperators.Group.List
import LatentFactors.Proofs.Arithmetic
import LatentFactors.Proofs.Outcome
import LatentFactors.Hypothesis.Prediction

/-!
# Predictions are distributions

In exact arithmetic with lawful links a prediction for classes is a proper
distribution: every class has a positive probability and the probabilities sum
to one.

* `Hypothesis.isDistribution_softmaxOf`: a softmax divides positive weights by
  their sum.
* `Hypothesis.isDistribution_classProbabilities`: the differences of rising
  cumulative probabilities are positive, and their sum telescopes.  Rising
  thresholds are needed here, and increments above zero give those
  (`Scalar.pairwise_running`).
* `Hypothesis.isDistribution_predictFull` and `Hypothesis.pos_of_mem_predict`
  put the cases together.
-/

namespace LatentFactors

variable {K : Type} [ExactScalar K]

/-- Positive probabilities that sum to one. -/
structure IsDistribution (p : List K) : Prop where
  pos : ∀ x ∈ p, 0 < x
  sum : p.sum = 1

namespace Scalar

/-- Running sums from a number rise above it if positive numbers are added. -/
theorem pairwise_cons_runningFrom {acc : K} {xs : List K} (h : ∀ x ∈ xs, 0 < x) :
    (acc :: runningFrom acc xs).Pairwise (· < ·) := by
  induction xs generalizing acc with
  | nil => exact List.pairwise_singleton _ _
  | cons x xs ih =>
    have hx : acc < acc + x := lt_add_of_pos_right acc (h x List.mem_cons_self)
    have hrest : ((acc + x) :: runningFrom (acc + x) xs).Pairwise (· < ·) :=
      ih fun z hz => h z (List.mem_cons_of_mem x hz)
    rw [runningFrom]
    refine List.pairwise_cons.2 ⟨fun z hz => ?_, hrest⟩
    rcases List.mem_cons.1 hz with rfl | hz
    · exact hx
    · exact hx.trans ((List.pairwise_cons.1 hrest).1 z hz)

/-- Running sums rise if every number but the first is positive. -/
theorem pairwise_running {xs : List K} (h : ∀ x ∈ xs.tail, 0 < x) :
    (running xs).Pairwise (· < ·) := by
  cases xs with
  | nil => exact .nil
  | cons x xs => exact pairwise_cons_runningFrom h

end Scalar

namespace Hypothesis

/-! ## Softmax -/

/-- A softmax of some scores is a distribution. -/
theorem isDistribution_softmaxOf (hexp : ∀ x : K, 0 < Scalar.exp x) {scores : List K}
    (hne : scores ≠ []) : IsDistribution (softmaxOf scores) := by
  have hpos (top : K) : ∀ w ∈ scores.map fun x => Scalar.exp (x - top), 0 < w := by
    intro w hw
    obtain ⟨x, -, rfl⟩ := List.mem_map.1 hw
    exact hexp (x - top)
  have hsum (top : K) : 0 < (scores.map fun x => Scalar.exp (x - top)).sum := by
    refine List.sum_pos _ (hpos top) ?_
    rw [ne_eq, List.map_eq_nil_iff]
    exact hne
  unfold softmaxOf
  dsimp only
  rw [Scalar.total_eq_sum]
  constructor
  · intro p hp
    obtain ⟨w, hw, rfl⟩ := List.mem_map.1 hp
    exact div_pos (hpos _ w hw) (hsum _)
  · have hscale : ∀ (ws : List K) (total : K), (ws.map (· / total)).sum = ws.sum / total := by
      intro ws total
      induction ws with
      | nil => simp
      | cons w ws ih => rw [List.map_cons, List.sum_cons, ih, List.sum_cons, add_div]
    rw [hscale]
    exact div_self (hsum _).ne'

/-! ## Ordered classes -/

private theorem differences_aux {cumulative : List K} {low : K}
    (h : (low :: (cumulative ++ [1])).Pairwise (· < ·)) :
    (∀ x ∈ List.zipWith (· - ·) (cumulative ++ [1]) (low :: cumulative), 0 < x) ∧
      (List.zipWith (· - ·) (cumulative ++ [1]) (low :: cumulative)).sum = 1 - low := by
  induction cumulative generalizing low with
  | nil =>
    have hlow : low < 1 := (List.pairwise_cons.1 h).1 1 (by simp)
    simp [hlow]
  | cons x rest ih =>
    obtain ⟨hlow, hrest⟩ := List.pairwise_cons.1 h
    obtain ⟨hpos, hsum⟩ := ih hrest
    have hx : low < x := hlow x List.mem_cons_self
    rw [List.cons_append, List.zipWith_cons_cons]
    constructor
    · intro z hz
      rcases List.mem_cons.1 hz with rfl | hz
      · exact sub_pos.2 hx
      · exact hpos z hz
    · rw [List.sum_cons, hsum]
      exact sub_add_sub_cancel' x low 1

/-- The differences of rising cumulative probabilities are a distribution. -/
theorem isDistribution_classProbabilities {cumulative : List K}
    (hrising : cumulative.Pairwise (· < ·)) (hpos : ∀ p ∈ cumulative, 0 < p)
    (hlt : ∀ p ∈ cumulative, p < 1) : IsDistribution (classProbabilities cumulative) := by
  have hall : ((0 : K) :: (cumulative ++ [1])).Pairwise (· < ·) := by
    refine List.pairwise_cons.2 ⟨fun x hx => ?_, ?_⟩
    · rcases List.mem_append.1 hx with hx | hx
      · exact hpos x hx
      · rw [List.mem_singleton.1 hx]
        exact one_pos
    · refine List.pairwise_append.2 ⟨hrising, List.pairwise_singleton _ _, fun x hx z hz => ?_⟩
      rw [List.mem_singleton.1 hz]
      exact hlt x hx
  obtain ⟨hdifferences, hsum⟩ := differences_aux hall
  exact ⟨hdifferences, hsum.trans (sub_zero 1)⟩

/-- Rising thresholds, shifted by a score, give a distribution. -/
theorem isDistribution_ordinal (hlinks : LinkLaws K) {thresholds : List K}
    (hrising : thresholds.Pairwise (· < ·)) (score : K) :
    IsDistribution (classProbabilities ((thresholds.map (· - score)).map Scalar.expit)) := by
  refine isDistribution_classProbabilities ?_ ?_ ?_
  · rw [List.map_map]
    refine hrising.map _ fun x z hxz => ?_
    exact hlinks.expit_strictMono (sub_lt_sub_right hxz score)
  · intro p hp
    obtain ⟨x, -, rfl⟩ := List.mem_map.1 hp
    exact hlinks.expit_pos x
  · intro p hp
    obtain ⟨x, -, rfl⟩ := List.mem_map.1 hp
    exact hlinks.expit_lt_one x

/-! ## All hypotheses for classes -/

/-- The whole distribution of classes is one, if rising thresholds are used
where the classes are ordered. -/
theorem isDistribution_predictFull (hlinks : LinkLaws K) {h : Hypothesis}
    (hclasses : h.predictsValue = false) {scores distribution : List K}
    (hordinal : h = .ordinal → ∃ (thresholds : List K) (score : K), thresholds.Pairwise (· < ·) ∧
      scores = thresholds.map (· - score))
    (hdistribution : h.predictFull scores = .ok distribution) : IsDistribution distribution := by
  cases h with
  | ols | poisson => cases hclasses
  | logistic =>
    obtain ⟨x, -, hdistribution⟩ := Outcome.bind_eq_ok.1 hdistribution
    injection hdistribution with hdistribution
    subst hdistribution
    constructor
    · intro p hp
      simp only [List.mem_cons, List.not_mem_nil, or_false] at hp
      rcases hp with rfl | rfl
      · exact sub_pos.2 (hlinks.expit_lt_one x)
      · exact hlinks.expit_pos x
    · simp
  | softmax =>
    rw [predictFull, predict] at hdistribution
    · split at hdistribution
      · cases hdistribution
      · next hmany =>
        injection hdistribution with hdistribution
        rw [← hdistribution]
        refine isDistribution_softmaxOf hlinks.exp_pos fun hnil => ?_
        rw [hnil, List.length_nil] at hmany
        omega
    · simp
  | ordinal =>
    obtain ⟨thresholds, score, hrising, rfl⟩ := hordinal rfl
    injection hdistribution with hdistribution
    rw [← hdistribution]
    exact isDistribution_ordinal hlinks hrising score

/-- No class has probability zero in a prediction, that of a binary response
included, which leaves one class out. -/
theorem pos_of_mem_predict (hlinks : LinkLaws K) {h : Hypothesis}
    (hclasses : h.predictsValue = false) {scores prediction : List K}
    (hordinal : h = .ordinal → ∃ (thresholds : List K) (score : K),
      thresholds.Pairwise (· < ·) ∧ scores = thresholds.map (· - score))
    (hprediction : h.predict scores = .ok prediction) {p : K} (hp : p ∈ prediction) : 0 < p := by
  cases h with
  | ols | poisson => cases hclasses
  | logistic =>
    obtain ⟨x, -, hprediction⟩ := Outcome.bind_eq_ok.1 hprediction
    injection hprediction with hprediction
    rw [← hprediction, List.mem_singleton] at hp
    rw [hp]
    exact hlinks.expit_pos x
  | softmax | ordinal =>
    exact (isDistribution_predictFull hlinks hclasses hordinal hprediction).pos p hp

end Hypothesis

end LatentFactors
