import LatentFactors.Algorithm
import LatentFactors.Experiment

/-!
# Random search for parameters

A `Trial` is a point of a search space with the scores that the algorithm
reaches there.  `best?` picks the trial with the smallest RMSE, or the one
with the largest recall; of equal trials the first one is picked.

Trials are put in order by comparisons with "less than" alone.  An undefined
score is less than nothing and nothing is less than it, so that the order of
several trials with undefined scores depends on how they are sorted.
`sortAscending` takes the longest ordered run at the start and inserts the
others by bisection, whatever the number of trials.
-/

namespace LatentFactors

/-- A point that has been evaluated. -/
structure Trial (α : Type) where
  point : Point α
  scores : Scores α

namespace Tuning

variable {α : Type} [Scalar α]

/-- Trains an algorithm at a point and scores it.  The description of the
recommender comes with the scores. -/
def evaluatePoint (h : Hypothesis) (train test : Frame α) (offset : Option (Numeral α))
    (draws : Draws α) (point : Params α) : Outcome α (String × Scores α) := do
  let recommender ← (← h.config point).recommender draws
  let experiment ← (Experiment.ofRecommender recommender h.predictsValue train test).shifted offset
  let ((scores, _), _) ← recommender.evaluate experiment.run
  return (recommender.description, scores)

/-- The score to tune for. -/
def metric (h : Hypothesis) : String := if h.predictsValue then "RMSE" else "recall"

/-- The scores that are recorded. -/
def recorded (h : Hypothesis) : List String :=
  if h.predictsValue then ["RMSE", "MAE"] else ["precision", "recall"]

/-- The score of a name. -/
def scoreOf (scores : Scores α) (name : String) : α :=
  ((scores.find? (·.1 == name)).map (·.2)).getD Scalar.undefined

/-! ## Sorting with an order that need not be total -/

variable {β : Type}

/-- Splits off the longest start of a list in which `related` holds between
neighbours. -/
def splitRun (related : β → β → Bool) : List β → List β × List β
  | [] => ([], [])
  | [x] => ([x], [])
  | x :: y :: rest =>
    if related x y then
      let (run, tail) := splitRun related (y :: rest)
      (x :: run, tail)
    else ([x], y :: rest)

/-- The longest ordered run at the start of a list, ascending, and what comes
after it.  A strictly descending run is turned around. -/
def leadingRun (less : β → β → Bool) : List β → List β × List β
  | x :: y :: rest =>
    if less y x then
      let (run, tail) := splitRun (fun a b => less b a) (x :: y :: rest)
      (run.reverse, tail)
    else splitRun (fun a b => !less b a) (x :: y :: rest)
  | xs => (xs, [])

/-- The place of an element in an ordered array between two places, found by
bisection; after all elements that are not above it. -/
def bisect (less : β → β → Bool) (xs : Array β) (x : β) (low high : Nat) : Nat :=
  if h : low < high then
    let middle := low + (high - low) / 2
    if xs[middle]?.any (less x) then bisect less xs x low middle
    else bisect less xs x (middle + 1) high
  else low
termination_by high - low
decreasing_by all_goals omega

/-- Inserts an element at its place. -/
def insertSorted (less : β → β → Bool) (sorted : List β) (x : β) : List β :=
  let place := bisect less sorted.toArray x 0 sorted.length
  sorted.take place ++ x :: sorted.drop place

/-- Sorts a list; elements of which none is less than the other keep their
order.  A sort that cuts a list of 64 or more elements into several runs and
merges them gives the same list if `less` is a weak order, but may give
another one if there are undefined scores. -/
def sortAscending (less : β → β → Bool) (xs : List β) : List β :=
  let (run, rest) := leadingRun less xs
  rest.foldl (insertSorted less) run

/-- Whether one trial has a lower score than another. -/
def scoresLess (name : String) (s t : Trial α) : Bool :=
  Scalar.less (scoreOf s.scores name) (scoreOf t.scores name)

/-- The best trial: the first one in ascending order of RMSE, or the last one
in ascending order of recall with the trials taken in reverse. -/
def best? (h : Hypothesis) (trials : List (Trial α)) : Option (Trial α) :=
  if h.predictsValue then (sortAscending (scoresLess (metric h)) trials).head?
  else (sortAscending (scoresLess (metric h)) trials.reverse).getLast?

end Tuning

end LatentFactors
