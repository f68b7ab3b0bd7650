import LatentFactors.Hypothesis.Basic
import LatentFactors.Store

/-!
# Shapes and hypotheses

How many vectors, scores and predictions there are for a shape.
`Shape.Admits h` says for which numbers of classes a hypothesis `h` is used.
-/

namespace LatentFactors

variable {α : Type}

/-- The numbers of classes that a hypothesis is for; ordered classes go with
the ordinal one and with no other. -/
def Shape.Admits (shape : Shape α) : Hypothesis → Prop
  | .ols | .poisson => shape.ordinal = false ∧ shape.classCount = 1
  | .logistic => shape.ordinal = false ∧ shape.classCount = 2
  | .softmax => shape.ordinal = false ∧ 3 ≤ shape.classCount
  | .ordinal => shape.ordinal = true ∧ 2 ≤ shape.classCount

/-- The number of scores of a user and an item. -/
def Shape.scoreCount (shape : Shape α) : Hypothesis → Nat
  | .ordinal => shape.cutCount
  | .ols | .logistic | .softmax | .poisson => shape.vectorCount

/-- The number of entries of a prediction. -/
def Shape.predictionCount (shape : Shape α) : Hypothesis → Nat
  | .ols | .logistic | .poisson => 1
  | .softmax | .ordinal => shape.classCount.toNat

theorem Shape.classCount_pos (shape : Shape α) : 0 < shape.classCount := by
  unfold classCount
  split <;> omega

theorem Shape.vectorCount_pos (shape : Shape α) : 0 < shape.vectorCount := by
  unfold vectorCount
  split
  · exact Nat.one_pos
  · next h =>
    rw [Bool.or_eq_true, not_or, decide_eq_true_iff] at h
    omega

/-- Up to two classes and ordered classes share one vector. -/
theorem Shape.vectorCount_eq_one {shape : Shape α} (h : shape.classCount ≤ 2) :
    shape.vectorCount = 1 := by
  simp [vectorCount, h]

theorem Shape.vectorCount_eq_one_of_ordinal {shape : Shape α} (h : shape.ordinal = true) :
    shape.vectorCount = 1 := by
  simp [vectorCount, h]

theorem Shape.vectorCount_eq_toNat {shape : Shape α} (hordinal : shape.ordinal = false)
    (h : 3 ≤ shape.classCount) : shape.vectorCount = shape.classCount.toNat := by
  have hmany : ¬ shape.classCount ≤ 2 := by omega
  simp [vectorCount, hordinal, hmany]

end LatentFactors
