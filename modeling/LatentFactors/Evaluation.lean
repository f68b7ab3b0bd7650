import LatentFactors.Frame

/-!
# Scores of predictions

`rmse` and `mae` compare predicted with true numbers.  `userScores` applies
such a metric to the rows of each user, and `classScores` counts, for each
class and user, how many of the predicted rows were right and how many of the
right rows were predicted.

A mean over users or classes leaves out those without a value.
-/

namespace LatentFactors

/-- Measures predictions against true numbers. -/
abbrev Metric (α : Type) := List α → List α → Outcome α α

/-- The precision and the recall of a class, averaged over the users for whom
they are defined. -/
structure ClassScore (α : Type) where
  label : Nat
  precisionMean : Option α
  recallMean : Option α
  deriving Repr

namespace Evaluation

variable {α : Type} [Scalar α]

/-- Pairs two lists of one length, or a single number with every number of
the other list. -/
def paired (xs ys : List α) : Outcome α (List (α × α)) :=
  if xs.length = ys.length then .ok (xs.zip ys)
  else
    match xs, ys with
    | [x], _ => .ok (ys.map (x, ·))
    | _, [y] => .ok (xs.map (·, y))
    | _, _ => .error .lengthMismatch

/-- The differences between predictions and true numbers. -/
def errors (predictions truth : List α) : Outcome α (List α) := do
  return (← paired predictions truth).map fun (p, t) => p - t

/-- The square root of the mean squared error. -/
def rmse : Metric α := fun predictions truth => do
  return Scalar.sqrt (Scalar.mean ((← errors predictions truth).map fun e => e * e))

/-- The mean absolute error. -/
def mae : Metric α := fun predictions truth => do
  return Scalar.mean ((← errors predictions truth).map Scalar.abs)

/-- The mean of the numbers that are present. -/
def meanPresent (xs : List (Option α)) : Option α :=
  match xs.filterMap id with
  | [] => none
  | y :: ys => some (Scalar.mean (y :: ys))

/-- The users of a list, ascending. -/
def sortedUsers (users : List (Option Id)) : List Id :=
  (distinctSome users).mergeSort Id.atMost

/-- The metric of each user over the rows of that user.  There has to be a
user. -/
def userScores (f : Frame α) (metric : Metric α) : Outcome α (List (Id × α)) := do
  let users ← f.users
  let predictions ← f.column "prediction"
  let truth ← f.column "rating"
  if (distinctSome users).isEmpty then throw .noUsers
  (sortedUsers users).mapM fun user => do
    let rows := rowsOf user users
    return (user, ← metric (← (predictions.pick rows).values) (← (truth.pick rows).values))

/-- A fraction of counts, unless the lower count is zero. -/
def fraction (part whole : Nat) : Option α :=
  if whole = 0 then none else some (Scalar.ofInt part / Scalar.ofInt whole)

/-- The precision and recall of one class among pairs of a predicted and a
true class. -/
def precisionRecall (label : Int) (pairs : List (Int × Int)) : Option α × Option α :=
  let predicted := pairs.filter (·.1 = label)
  let actual := pairs.filter (·.2 = label)
  let hits := predicted.filter (·.2 = label)
  (fraction hits.length predicted.length, fraction hits.length actual.length)

/-- The precision and recall of every class, averaged over the users for whom
they are defined. -/
def classScores (f : Frame α) (classes : Int) : Outcome α (List (ClassScore α)) := do
  let predicted ← (← f.column "prediction").wholeNumbers
  let actual ← (← f.column "rating").wholeNumbers
  if classes ≤ 0 then throw .noClasses
  else
    let users ← f.users
    let pairs := predicted.zip actual
    let byUser := (sortedUsers users).map fun user => pickRows (rowsOf user users) pairs
    return (List.range classes.toNat).map fun (label : Nat) =>
      let scores := byUser.map (precisionRecall (label : Int))
      ⟨label, meanPresent (scores.map (·.1)), meanPresent (scores.map (·.2))⟩

end Evaluation

end LatentFactors
