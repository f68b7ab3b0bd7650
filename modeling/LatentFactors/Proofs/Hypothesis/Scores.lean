import LatentFactors.Proofs.Vec.Entries
import LatentFactors.Hypothesis.Prediction

/-!
# Scores and predictions of separate classes

Every hypothesis but the ordinal one scores its classes one by one
(`Hypothesis.linearCombination_of_classes`).  Without side terms the score of a class is the
product of its two vectors, and a prediction from the vectors themselves is made of the same
products.  So the two ways to a prediction give the same, and refuse the same families
(`Hypothesis.predictFeatures_agrees`).

There is a prediction exactly when the vectors of the two families have the same sizes, class
by class, and are as many as the link needs (`Hypothesis.exists_predictFeatures_iff`).
-/

namespace LatentFactors

/-- What two ways to a prediction give for the families of a user and an item: the same
outcome, or a refusal of families with different numbers of vectors, for which each way has
words of its own. -/
inductive PathsAgree {α β : Type} (users items : Family α) :
    Outcome α β → Outcome α β → Prop where
  | same (h : users.length = items.length) (r : Outcome α β) : PathsAgree users items r r
  | lengths (h : users.length ≠ items.length) :
      PathsAgree users items (.error (.featureMismatch users.length items.length))
        (.error (.familyMismatch users.length items.length))

namespace PathsAgree

variable {α β γ : Type} {users items : Family α} {r r' : Outcome α β}

/-- What both ways go on with makes no difference. -/
theorem bind (h : PathsAgree users items r r') (f : β → Outcome α γ) :
    PathsAgree users items (r >>= f) (r' >>= f) := by
  cases h with
  | same hlengths => exact .same hlengths _
  | lengths hlengths => exact .lengths hlengths

theorem eq (h : PathsAgree users items r r') (hlengths : users.length = items.length) :
    r = r' := by
  cases h with
  | same => rfl
  | lengths hne => exact absurd hlengths hne

/-- A result of one way is the result of the other. -/
theorem eq_ok_iff (h : PathsAgree users items r r') {b : β} : r = .ok b ↔ r' = .ok b := by
  cases h with
  | same => exact Iff.rfl
  | lengths => exact iff_of_false nofun nofun

end PathsAgree

namespace Hypothesis

variable {α : Type} [Scalar α] {h : Hypothesis} {users items : Family α}

/-! ## Scores -/

/-- A hypothesis that is not ordinal has the scores of its classes. -/
theorem linearCombination_of_classes (hkind : h ≠ .ordinal)
    (hlengths : users.length = items.length) (cuts : List α) (terms : List (Family α × Vec α)) :
    h.linearCombination cuts users items terms =
      (users.zip items).zipIdx.mapM fun e => classScore e.2 e.1.1 e.1.2 terms := by
  cases h with
  | ordinal => exact absurd rfl hkind
  | ols | logistic | softmax | poisson => exact if_neg (not_not.2 hlengths)

/-- Families with different numbers of vectors have no scores. -/
theorem linearCombination_of_lengths (hkind : h ≠ .ordinal)
    (hlengths : users.length ≠ items.length) (cuts : List α) (terms : List (Family α × Vec α)) :
    h.linearCombination cuts users items terms =
      .error (.familyMismatch users.length items.length) := by
  cases h with
  | ordinal => exact absurd rfl hkind
  | ols | logistic | softmax | poisson => exact if_pos hlengths

/-- Without side terms a score is a product. -/
theorem classScore_nil (c : Nat) (user item : Vec α) :
    classScore c user item [] = user.dot item :=
  bind_pure _

/-- Without side terms the scores are the products of the vectors of each class. -/
theorem linearCombination_nil (hkind : h ≠ .ordinal) (hlengths : users.length = items.length)
    (cuts : List α) :
    h.linearCombination cuts users items [] = (users.zip items).mapM fun e => e.1.dot e.2 := by
  rw [linearCombination_of_classes hkind hlengths]
  simp only [classScore_nil]
  exact Outcome.mapM_zipIdx (fun e : Vec α × Vec α => e.1.dot e.2) _

/-! ## Predictions from vectors -/

theorem predictFeatures_of_classes (hkind : h ≠ .ordinal)
    (hlengths : users.length = items.length) :
    h.predictFeatures users items = (do
      h.predict (← (users.zip items).mapM fun e => e.1.dot e.2)) := by
  cases h with
  | ordinal => exact absurd rfl hkind
  | ols | logistic | softmax | poisson => exact if_neg (not_not.2 hlengths)

theorem predictFeatures_of_lengths (hkind : h ≠ .ordinal)
    (hlengths : users.length ≠ items.length) :
    h.predictFeatures users items = .error (.featureMismatch users.length items.length) := by
  cases h with
  | ordinal => exact absurd rfl hkind
  | ols | logistic | softmax | poisson => exact if_pos hlengths

/-- It does not matter whether a prediction is made from the vectors of a user and an item or
from their scores, whatever the thresholds are. -/
theorem predictFeatures_agrees (hkind : h ≠ .ordinal) (cuts : List α) (users items : Family α) :
    PathsAgree users items (h.predictFeatures users items)
      (do h.predict (← h.linearCombination cuts users items [])) := by
  by_cases hlengths : users.length = items.length
  · rw [predictFeatures_of_classes hkind hlengths, linearCombination_nil hkind hlengths]
    exact .same hlengths _
  · rw [predictFeatures_of_lengths hkind hlengths, linearCombination_of_lengths hkind hlengths]
    exact .lengths hlengths

/-! ## Families that have a prediction -/

/-- The fewest scores that the link of a hypothesis can be applied to. -/
def scoresNeeded : Hypothesis → Nat
  | ols | ordinal => 0
  | logistic | poisson => 1
  | softmax => 3

theorem exists_predict_iff (h : Hypothesis) (scores : List α) :
    (∃ prediction, h.predict scores = .ok prediction) ↔ h.scoresNeeded ≤ scores.length := by
  have hfirst (link : α → α) : (∃ prediction, (do
      return [link (← Outcome.nth scores 0)] : Outcome α (List α)) = .ok prediction) ↔
        1 ≤ scores.length := by
    rw [Nat.succ_le_iff, ← Outcome.exists_nth_iff (α := α)]
    constructor
    · rintro ⟨_, hprediction⟩
      obtain ⟨x, hx, -⟩ := Outcome.bind_eq_ok.1 hprediction
      exact ⟨x, hx⟩
    · rintro ⟨x, hx⟩
      exact ⟨_, Outcome.bind_eq_ok.2 ⟨x, hx, rfl⟩⟩
  cases h with
  | ols | ordinal => exact iff_of_true ⟨_, rfl⟩ (Nat.zero_le _)
  | logistic => exact hfirst Scalar.expit
  | poisson => exact hfirst Scalar.exp
  | softmax =>
    by_cases hfew : scores.length < 3
    · refine iff_of_false ?_ (Nat.not_le.2 hfew)
      rintro ⟨_, hprediction⟩
      rw [predict, if_pos hfew] at hprediction
      cases hprediction
    · exact iff_of_true ⟨_, if_neg hfew⟩ (Nat.not_lt.1 hfew)

/-- Two families have a prediction exactly when their vectors have products, class by class,
and there are enough of them. -/
theorem exists_predictFeatures_iff (hkind : h ≠ .ordinal) :
    (∃ prediction, h.predictFeatures users items = .ok prediction) ↔
      List.Forall₂ Vec.HasProduct users items ∧ h.scoresNeeded ≤ users.length := by
  by_cases hlengths : users.length = items.length
  · have hproducts : (∃ scores, ((users.zip items).mapM fun e => e.1.dot e.2) = .ok scores) ↔
        List.Forall₂ Vec.HasProduct users items := by
      simp only [Outcome.exists_mapM_ok_iff, Vec.exists_dot_iff, List.forall₂_iff_zip, hlengths,
        true_and, Prod.forall]
    have hcount {scores : List α}
        (hscores : ((users.zip items).mapM fun e => e.1.dot e.2) = .ok scores) :
        scores.length = users.length := by
      rw [Outcome.length_of_mapM hscores, List.length_zip, ← hlengths, Nat.min_self]
    rw [predictFeatures_of_classes hkind hlengths, ← hproducts]
    constructor
    · rintro ⟨prediction, hprediction⟩
      obtain ⟨scores, hscores, hprediction⟩ := Outcome.bind_eq_ok.1 hprediction
      refine ⟨⟨scores, hscores⟩, ?_⟩
      rw [← hcount hscores]
      exact (exists_predict_iff h scores).1 ⟨prediction, hprediction⟩
    · rintro ⟨⟨scores, hscores⟩, hneeded⟩
      rw [← hcount hscores] at hneeded
      obtain ⟨prediction, hprediction⟩ := (exists_predict_iff h scores).2 hneeded
      exact ⟨prediction, Outcome.bind_eq_ok.2 ⟨scores, hscores, hprediction⟩⟩
  · rw [predictFeatures_of_lengths hkind hlengths]
    exact iff_of_false nofun fun hfits => hlengths hfits.1.length_eq

end Hypothesis

end LatentFactors
