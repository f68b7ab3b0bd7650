import LatentFactors.Command.Folder
import LatentFactors.Command.Options
import LatentFactors.Tuning

/-!
# Searching for parameters

The command draws points of the search space of an algorithm and evaluates
the algorithm at each of them on the validation ratings of a split.  It gives
the points, a record of all trials and the best one.
-/

namespace LatentFactors.Command.Tune

/-- The options of the command. -/
def optionSpecs : List OptionSpec :=
  [switch 'v' "verbose", valued 'r' "record", valued 'o' none, valued 'n' "num-points",
    valued 's' "seed", valued none "rating-offset", switch none "points-only"]

/-- What the command is asked to do. -/
structure Settings where
  record : Option String
  output : Option String
  points : String
  seed : Option String
  offset : Option String
  pointsOnly : Bool
  algorithm : String
  directory : String

/-- Reads the command line. -/
def Settings.read (words : List String) : Outcome Float Settings := do
  let a ← Arguments.read optionSpecs 2 words
  return {
    record := a.text? "--record"
    output := a.text? "-o"
    points := (a.value? "--num-points").getD "60"
    seed := a.text? "--seed"
    offset := a.text? "--rating-offset"
    pointsOnly := a.has "--points-only"
    algorithm := a.word 0
    directory := a.word 1 }

/-- The ratings to train on. -/
def Settings.trainPath (s : Settings) : String := Text.Path.join s.directory "train.parquet"

/-- The ratings to score on. -/
def Settings.testPath (s : Settings) : String := Text.Path.join s.directory "validation.parquet"

/-- The files that the command reads. -/
def Settings.files (s : Settings) : List String := [s.trainPath, s.testPath]

/-- Named numbers. -/
abbrev Entries := List (String × Numeral Float)

/-- A table of numbers with named columns. -/
structure Record where
  header : List String
  rows : List (List (Numeral Float))

/-- What the command gives. -/
structure Answer where
  points : List Entries
  log : List String
  record : Record
  best : Option Entries

/-- A point as named numbers. -/
def pointEntries (point : Point Float) : Entries :=
  point.map fun (field, n) => (field.name, n)

/-- A trial as named numbers. -/
def trialEntries (trial : Trial Float) : Entries :=
  pointEntries trial.point ++ trial.scores.map fun (name, x) => (name, .real x)

/-- Draws some points, one after the other. -/
def drawPoints (h : Hypothesis) (count : Nat) (draws : Draws Float) :
    Outcome Float (List (Point Float)) := do
  let (points, _) ← (List.range count).foldlM (fun (points, draws) _ => do
    let (point, rest) ← h.samplePoint draws
    return (points ++ [point], rest)) (([] : List (Point Float)), draws)
  return points

/-- The names of the columns of a record. -/
def recordHeader (h : Hypothesis) : List String :=
  (h.searchSpace : List (Field × Distribution Float)).map (·.1.name) ++ Tuning.recorded h

/-- The row of a trial in a record. -/
def recordRow (header : List String) (trial : Trial Float) : List (Numeral Float) :=
  let entries := trialEntries trial
  header.filterMap fun name => (entries.find? (·.1 == name)).map (·.2)

/-- Writes a record with one line for each row. -/
def Record.text (r : Record) : String :=
  let line (fields : List String) : String := ",".intercalate fields ++ "\r\n"
  String.join (line r.header :: r.rows.map fun row => line (row.map Numeral.text))

/-- Searches for parameters.  Every evaluation starts from the same draws. -/
def execute (s : Settings) (folder : Folder) (pointDraws draws : Draws Float) :
    Outcome Float Answer := do
  let _ ← s.seed.mapM seedOption
  let h ← Hypothesis.algorithm s.algorithm
  let train ← folder.frame s.trainPath
  let test ← folder.frame s.testPath
  let offset ← s.offset.mapM realOption
  let _ ← s.record.mapM folder.checkWritable
  let count ← integerOption s.points
  let points ← drawPoints h count.toNat pointDraws
  let evaluated ← if s.pointsOnly then pure [] else points.mapM fun point => do
    let (description, scores) ←
      Tuning.evaluatePoint h train test (offset.map .real) draws point.params
    return (description, (⟨point, scores⟩ : Trial Float))
  let trials := evaluated.map (·.2)
  let best := Tuning.best? h trials
  let header := recordHeader h
  let metric := Tuning.metric h
  let finished := best.toList.map fun trial =>
    "finished with " ++ metric ++ " " ++ Decimal.fixed 3 (Tuning.scoreOf trial.scores metric)
  let saving ← if best.isSome then s.output.toList.mapM fun path => do
      folder.checkWritable (Text.Path.normalize path)
      return "saving params to " ++ path
    else pure []
  return {
    points := points.map pointEntries
    log := ["loading algorithm " ++ s.algorithm,
      "loading data from " ++ Text.Path.normalize s.directory,
      s!"evaluating at {count} points"] ++
      evaluated.map (fun e => "evaluating " ++ e.1) ++ finished ++ saving
    record := ⟨header, trials.map (recordRow header)⟩
    best := best.map trialEntries }

end LatentFactors.Command.Tune
