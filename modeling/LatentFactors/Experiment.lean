import LatentFactors.Decimal.Fixed
import LatentFactors.Evaluation
import LatentFactors.Ratings
import LatentFactors.Recommender

/-!
# Training and scoring

An `Experiment` trains a recommender on one frame of ratings for some epochs
and scores its estimates on another.  Single numbers are scored by RMSE and
MAE, pooled or averaged over users, and classes by precision and recall,
averaged over the classes.  Rows without an estimate are not scored.

`Experiment.run` gives the final scores together with everything that is
reported on the way.
-/

namespace LatentFactors

/-- Scores with their names. -/
abbrev Scores (α : Type) := List (String × α)

/-- What an experiment reports. -/
inductive Report (α : Type) where
  /-- The scores after an epoch, counted from one. -/
  | epoch (number : Nat) (scores : Scores α)
  /-- One of the final scores. -/
  | final (name : String) (value : α)

/-- Puts a report into words, with four decimal places. -/
def Report.text : Report Float → String
  | epoch number scores =>
    s!"epoch {number}: " ++
      ", ".intercalate (scores.map fun (name, x) => name ++ "=" ++ Decimal.fixed 4 x)
  | final name x => name ++ ": " ++ Decimal.fixed 4 x

/-- What to train on, what to score on and how. -/
structure Experiment (α : Type) where
  train : Frame α
  test : Frame α
  epochs : Setting α
  predictsValue : Bool
  classes : Int
  eachEpoch : Bool
  userBased : Bool
  sides : List (SideKey × Vec α)

namespace Experiment

variable {α : Type} [Scalar α]

/-- The pooled experiment of a recommender, with its own epochs and classes. -/
def ofRecommender (r : Recommender α) (predictsValue : Bool) (train test : Frame α) :
    Experiment α where
  train := train
  test := test
  epochs := r.epochs
  predictsValue := predictsValue
  classes := r.store.shape.classCount
  eachEpoch := false
  userBased := false
  sides := []

/-- Subtracts an offset, if there is one, from the ratings of both frames. -/
def shifted (e : Experiment α) (offset : Option (Numeral α)) : Outcome α (Experiment α) :=
  match offset with
  | none => .ok e
  | some offset => do
    let train ← shiftRatings offset e.train
    return { e with train, test := ← shiftRatings offset e.test }

/-- The estimates as a column: of integers if there are some and all of them
are class labels, of numbers otherwise. -/
def estimateColumn (estimates : List (Option (Numeral α))) : Column α :=
  let labels := estimates.filterMap fun y => match y with
    | some (.integer n) => some n
    | _ => none
  if !estimates.isEmpty && labels.length = estimates.length then .ints .signed labels
  else .reals (estimates.map fun y => y.bind fun y => Column.present y.value)

/-- The test ratings with their estimates in the column `prediction`, user by
user in the order of appearance.  Rows without a user are left out, unless no
row has one. -/
def predictions (e : Experiment α) : RecommenderM α (Frame α) := do
  let users ← Recommender.lift e.test.users
  let groups ← (distinctSome users).mapM fun user => do
    let rows := rowsOf user users
    let items ← Recommender.lift (e.test.ids "item")
    return (rows, ← Recommender.predictForUser user (pickRows rows items))
  if groups.isEmpty then
    return e.test.assign "prediction" (.reals (List.replicate e.test.size none))
  else
    let rows := groups.flatMap (·.1)
    return (e.test.pick rows).assign "prediction" (estimateColumn (groups.flatMap (·.2)))

/-- Whether each row of a frame has an estimate. -/
def scored (f : Frame α) : Outcome α (List Nat) := do
  let estimates ← f.values "prediction"
  return (estimates.zipIdx.filter (!Scalar.isUndefined ·.1)).map (·.2)

/-- A mean that may be missing, as a number. -/
def orUndefined (x : Option α) : α := x.getD Scalar.undefined

/-- The mean over users of a metric. -/
def userMean (f : Frame α) (metric : Metric α) : Outcome α α := do
  let scores ← Evaluation.userScores f metric
  return orUndefined (Evaluation.meanPresent (scores.map fun s => Column.present s.2))

/-- The metric over all rows. -/
def pooled (f : Frame α) (metric : Metric α) : Outcome α α := do
  metric (← f.values "prediction") (← f.values "rating")

/-- The scores of a frame of which every row has an estimate. -/
def measure (e : Experiment α) (f : Frame α) : Outcome α (Scores α) := do
  if e.predictsValue then
    let metric := if e.userBased then userMean f else pooled f
    return [("RMSE", ← metric Evaluation.rmse), ("MAE", ← metric Evaluation.mae)]
  else
    let classes ← Evaluation.classScores f e.classes
    let mean (score : ClassScore α → Option α) : α :=
      orUndefined (Evaluation.meanPresent (classes.map score))
    return [("precision", mean (·.precisionMean)), ("recall", mean (·.recallMean))]

/-- The scores of a frame of estimates: those of the rows that have one. -/
def scoreFrame (e : Experiment α) (predictions : Frame α) : Outcome α (Scores α) := do
  e.measure (predictions.pick (← scored predictions))

/-- Scores the estimates on the test frame. -/
def score (e : Experiment α) : RecommenderM α (Scores α) := do
  Recommender.lift (e.scoreFrame (← e.predictions))

/-- Passes over the training frame once, and scores if asked to. -/
def epoch (e : Experiment α) (number : Nat) : RecommenderM α (List (Report α)) := do
  Recommender.partialFit e.train
  if e.eachEpoch then return [.epoch number (← e.score)] else return []

/-- Prepares for the training frame and passes over it once for each epoch. -/
def fit (e : Experiment α) : RecommenderM α (List (Report α)) := do
  Recommender.prepare e.train e.sides
  let epochs ← Recommender.lift e.epochs.count
  let reports ← (List.range epochs.toNat).mapM fun n => e.epoch (n + 1)
  return reports.flatten

/-- Trains and scores. -/
def run (e : Experiment α) : RecommenderM α (Scores α × List (Report α)) := do
  let reports ← e.fit
  let scores ← e.score
  return (scores, reports ++ scores.map fun (name, x) => .final name x)

end Experiment

end LatentFactors
