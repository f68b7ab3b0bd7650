import LatentFactors.Vec.Basic

/-!
# From scores to predictions

`Hypothesis.linearCombination` scores a user and an item: one score for each
class, or one for each threshold of an ordinal response.
`Hypothesis.predict` applies the link, and `Hypothesis.predictFull` always
gives the whole distribution over the classes.

The thresholds of an ordinal response are stored as increments, so their
running sums are the thresholds themselves.
-/

namespace LatentFactors.Hypothesis

variable {α : Type} [Scalar α]

/-- The exponentials of the scores, less the largest score, over their sum. -/
def softmaxOf (scores : List α) : List α :=
  let top := scores.foldl Scalar.larger (scores.head?.getD 0)
  let weights := scores.map fun x => Scalar.exp (x - top)
  let sum := Scalar.total weights
  weights.map (· / sum)

/-- The probabilities of the classes between cumulative probabilities: the
differences of neighbours after a zero in front and a one behind. -/
def classProbabilities (cumulative : List α) : List α :=
  List.zipWith (· - ·) (cumulative ++ [1]) (0 :: cumulative)

/-- The prediction for the scores of a user and an item. -/
def predict (h : Hypothesis) (scores : List α) : Outcome α (List α) :=
  match h with
  | ols => .ok scores
  | logistic => do return [Scalar.expit (← Outcome.nth scores 0)]
  | softmax => if scores.length < 3 then .error .tooFewScores else .ok (softmaxOf scores)
  | ordinal => .ok (classProbabilities (scores.map Scalar.expit))
  | poisson => do return [Scalar.exp (← Outcome.nth scores 0)]

/-- Why nothing can be predicted without scores: an ordinal response has no
thresholds to take differences of, and the other links have nothing to apply
to. -/
def withoutScores : Hypothesis → Fault α
  | ordinal => .nothingToChoose
  | ols | logistic | softmax | poisson => .wrongType

/-- Like `predict`, but with the probabilities of both classes of a binary
response. -/
def predictFull (h : Hypothesis) (scores : List α) : Outcome α (List α) :=
  match h with
  | logistic => do
    let p := Scalar.expit (← Outcome.nth scores 0)
    return [1 - p, p]
  | _ => h.predict scores

/-- The score of class `c`: the product of its user and item vectors, plus the
products of its parameter vectors with the features that they apply to. -/
def classScore (c : Nat) (user item : Vec α) (terms : List (Family α × Vec α)) :
    Outcome α α := do
  terms.foldlM (fun score term => do
    return score + (← (← Outcome.nth term.1 c).dot term.2)) (← user.dot item)

/-- The scores of a user and an item.  An ordinal response subtracts one score
from every threshold; the other responses have one score for each class. -/
def linearCombination (h : Hypothesis) (cuts : List α) (users items : Family α)
    (terms : List (Family α × Vec α)) : Outcome α (List α) :=
  match h with
  | ordinal => do
    let score ← classScore 0 (← Outcome.nth users 0) (← Outcome.nth items 0) terms
    return (Scalar.running cuts).map (· - score)
  | _ =>
    if users.length ≠ items.length then .error (.familyMismatch users.length items.length)
    else (users.zip items).zipIdx.mapM fun ((user, item), c) => classScore c user item terms

/-- The prediction from feature and parameter vectors, one pair for each
class. -/
def predictFeatures (h : Hypothesis) (features parameters : Family α) :
    Outcome α (List α) :=
  match h with
  | ordinal => .error .predictionNeedsCuts
  | _ =>
    if features.length ≠ parameters.length then
      .error (.featureMismatch features.length parameters.length)
    else do h.predict (← (features.zip parameters).mapM fun (x, p) => x.dot p)

end LatentFactors.Hypothesis
