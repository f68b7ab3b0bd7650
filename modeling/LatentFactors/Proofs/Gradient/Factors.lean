import LatentFactors.Proofs.Arithmetic.Rational
import LatentFactors.Proofs.Hypothesis.Scores
import LatentFactors.Gradient.Basic

/-!
# Steps from the factors alone

The steps of a user's vectors can be asked for without a prediction.  They are those for the
prediction that is made from the vectors of the user and the item
(`Gradient.factorSteps_of_unordered`).  Made from their scores, the prediction is the same
(`Hypothesis.predictFeatures_agrees`), and so is all that goes on from it (`PathsAgree.bind`),
whichever of the unordered rules that is, also one that does not belong to the hypothesis.
-/

namespace LatentFactors

variable {α : Type} [Scalar α]

theorem Gradient.factorSteps_of_unordered {g : Gradient α} (hrule : g.rule ≠ .ordinal)
    (index : Int) (y : Numeral α) (users items : Family α) (penalty : Setting α) :
    g.factorSteps index y users items penalty = (do
      g.steps index y users (.perClass items) (← g.hypothesis.predictFeatures users items)
        penalty) := by
  obtain ⟨rule, hypothesis, rate⟩ := g
  cases rule with
  | ordinal => exact absurd rfl hrule
  | default | softmax => rfl

/-- A prediction from the vectors of a user and an item is the one from their scores, whatever
the thresholds are, and so are the steps that are made of it.  Both ways fail alike: on
families with different numbers of vectors, each in its own words, and for the same reason
otherwise.  They give a prediction exactly when the vectors have a product in every class, and
the link has the scores that it needs. -/
theorem prediction_paths_agree (h : Hypothesis) (hkind : h ≠ .ordinal) (cuts : List α)
    (users items : Family α) :
    let fromScores : Outcome α (List α) := do h.predict (← h.linearCombination cuts users items [])
    PathsAgree users items (h.predictFeatures users items) fromScores ∧
    (∀ g : Gradient α, g.hypothesis = h → g.rule ≠ .ordinal →
      ∀ (index : Int) (y : Numeral α) (penalty : Setting α),
        PathsAgree users items (g.factorSteps index y users items penalty)
          (do g.steps index y users (.perClass items) (← fromScores) penalty)) ∧
    ((∃ prediction, fromScores = .ok prediction) ↔
      List.Forall₂ Vec.HasProduct users items ∧ h.scoresNeeded ≤ users.length) := by
  intro fromScores
  have hagree : PathsAgree users items (h.predictFeatures users items) fromScores :=
    Hypothesis.predictFeatures_agrees hkind cuts users items
  refine ⟨hagree, ?_, ?_⟩
  · rintro g rfl hrule index y penalty
    rw [Gradient.factorSteps_of_unordered hrule]
    exact hagree.bind _
  · simp only [← hagree.eq_ok_iff]
    exact Hypothesis.exists_predictFeatures_iff hkind

/-- Three classes, one of them with a sparse user vector and one with a sparse item vector: the
softmax rule steps by the probabilities, and the default rule refuses three vectors. -/
theorem prediction_paths_agree_softmax :
    let users : Family ℚ :=
      [.dense #[1, 2], .sparse ⟨3, [(1, 2)], by simp, by simp⟩, .dense #[0, 1, 1]]
    let items : Family ℚ := [.dense #[3, 1], .dense #[4, 1 / 2, 7], .sparse (.zero 3)]
    let softmax : Gradient ℚ := ⟨.softmax, .softmax, .ofInt 1⟩
    let mixed : Gradient ℚ := ⟨.default, .softmax, .ofInt 1⟩
    softmax.hypothesis ≠ .ordinal ∧ softmax.rule ≠ .ordinal ∧ mixed.rule ≠ .ordinal ∧
    softmax.hypothesis.predictFeatures users items = .ok [30 / 41, 6 / 41, 5 / 41] ∧
    softmax.factorSteps 1 (.integer 0) users items (.ofInt 0) = .ok [11 / 41, -(3 / 41), 0] ∧
    mixed.factorSteps 1 (.integer 0) users items (.ofInt 0) = .error (.needsOneVector 3) := by
  intro users items softmax mixed
  obtain ⟨hprediction, hsteps, -⟩ :=
    prediction_paths_agree .softmax (by decide) [] users items
  have hsoftmax := hsteps softmax rfl (by decide) 1 (.integer 0) (.ofInt 0)
  have hmixed := hsteps mixed rfl (by decide) 1 (.integer 0) (.ofInt 0)
  refine ⟨by decide, by decide, by decide, ?_, ?_, ?_⟩
  · exact (hprediction.eq rfl).trans (by decide +kernel)
  · exact (hsoftmax.eq rfl).trans (by decide +kernel)
  · exact (hmixed.eq rfl).trans (by decide +kernel)

end LatentFactors
