import LatentFactors.Command.Folder
import LatentFactors.Command.Options
import LatentFactors.Ratings

/-!
# Splitting a file of ratings

The command reads ratings, splits them at random and gives the frames of the
three parts.
-/

namespace LatentFactors.Command.Split

/-- The names of the columns of ratings. -/
def ratingColumns : List String := ["user", "item", "rating"]

/-- The options of the command. -/
def optionSpecs : List OptionSpec :=
  [valued 'o' "output", valued none "sep", valued none "test", valued none "validation",
    valued 's' "seed"]

/-- The file of the ratings to train on. -/
def trainName : String := "train.parquet"

/-- The file of the ratings to validate on. -/
def validationName : String := "validation.parquet"

/-- The file of the ratings to test on. -/
def testName : String := "test.parquet"

/-- What the command is asked to do. -/
structure Settings where
  directory : String
  separator : String
  test : String
  validation : String
  seed : Option String
  file : String

/-- Reads the command line. -/
def Settings.read (words : List String) : Outcome Float Settings := do
  let a ← Arguments.read optionSpecs 1 words
  return {
    directory := (a.value? "--output").getD "data/ratings-split"
    separator := (a.value? "--sep").getD ","
    test := (a.value? "--test").getD "0.15"
    validation := (a.value? "--validation").getD "0.10"
    seed := a.text? "--seed"
    file := a.word 0 }

/-- The files that the command reads. -/
def Settings.files (s : Settings) : List String := [s.file]

/-- What the command gives. -/
structure Answer where
  directory : String
  train : Frame Float
  validation : Frame Float
  test : Frame Float
  report : String
  log : List String

/-- Splits the ratings of a file. -/
def execute (settings : Settings) (folder : Folder) (draws : Draws Float) :
    Outcome Float Answer := do
  let _ ← settings.seed.mapM seedOption
  let ratings ← folder.table settings.file settings.separator ratingColumns
  let test ← realOption settings.test
  let validation ← realOption settings.validation
  let parts ← SplitFractions.assign ⟨.real test, .real validation⟩ ratings.size draws
  let directory := Text.Path.normalize settings.directory
  let made ← folder.makeDirectory directory
  let write (name : String) (part : Part) : Outcome Float (Frame Float) := do
    made.checkFrameWritable (Text.Path.join directory name)
    (ratings.pick (rowsIn part parts)).kept
  return {
    directory
    train := ← write trainName .train
    validation := ← write validationName .validation
    test := ← write testName .test
    report := splitReport parts
    log := ["saving to " ++ directory] }

end LatentFactors.Command.Split
