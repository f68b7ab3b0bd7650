import LatentFactors.Command.Folder
import LatentFactors.Command.Options
import LatentFactors.Command.Params
import LatentFactors.Experiment
import LatentFactors.SideInfo

/-!
# Training and scoring an algorithm

The command reads a split of ratings and, if asked to, side information and
parameters.  It trains the algorithm, reports its scores and gives the
predictions.

The sizes of the store come from the side information that was read.  Without
parameters and side information the algorithm has its default settings.
-/

namespace LatentFactors.Command.Run

/-- The options of the command. -/
def optionSpecs : List OptionSpec :=
  [valued 'd' "data", switch none "validation", valued none "params",
    valued none "user-side", valued none "item-side", valued none "dynamic-side",
    valued none "sep", switch none "convergence", valued none "rating-offset",
    switch none "user-based", valued 's' "seed", valued 'o' none, switch 'v' "verbose"]

/-- What the command is asked to do. -/
structure Settings where
  data : String
  validation : Bool
  params : Option String
  userSide : Option String
  itemSide : Option String
  dynamicSide : Option String
  separator : String
  convergence : Bool
  offset : Option String
  userBased : Bool
  seed : Option String
  output : Option String
  algorithm : String

/-- Reads the command line. -/
def Settings.read (words : List String) : Outcome Float Settings := do
  let a ← Arguments.read optionSpecs 1 words
  return {
    data := (a.value? "--data").getD "data/ratings-split"
    validation := a.has "--validation"
    params := a.text? "--params"
    userSide := a.text? "--user-side"
    itemSide := a.text? "--item-side"
    dynamicSide := a.text? "--dynamic-side"
    separator := (a.value? "--sep").getD ","
    convergence := a.has "--convergence"
    offset := a.text? "--rating-offset"
    userBased := a.has "--user-based"
    seed := a.text? "--seed"
    output := a.text? "-o"
    algorithm := a.word 0 }

/-- The name of the ratings to score on. -/
def Settings.testName (s : Settings) : String := if s.validation then "validation" else "test"

/-- The ratings to train on. -/
def Settings.trainPath (s : Settings) : String := Text.Path.join s.data "train.parquet"

/-- The ratings to score on. -/
def Settings.testPath (s : Settings) : String :=
  Text.Path.join s.data (s.testName ++ ".parquet")

/-- The files that the command reads. -/
def Settings.files (s : Settings) : List String :=
  [s.trainPath, s.testPath] ++ s.params.toList ++ s.userSide.toList ++ s.itemSide.toList ++
    s.dynamicSide.toList

/-- What the command gives. -/
structure Answer where
  log : List String
  reports : List (Report Float)
  predictions : Option (Frame Float)

/-- Side information of one kind, by its keys. -/
abbrev SideVectors := List (RowKey × Vec Float)

/-- The names of the columns of side information with a key. -/
def sideColumns : KeyColumns → List String
  | .one name => [name, "feature", "value"]
  | .several names => names ++ ["feature", "value"]

/-- The word for the side information of an owner. -/
def sideWord : SideOwner → String
  | .user => "user"
  | .item => "item"
  | .pair => "dynamic"

/-- The key columns of the side information of an owner. -/
def keyColumns : SideOwner → KeyColumns
  | .user => .one "user"
  | .item => .one "item"
  | .pair => .several ["user", "item"]

/-- The place of the side information of a key.  A key that cannot be taken
apart into a user and an item has none. -/
def sideKey (owner : SideOwner) (key : RowKey) : Outcome Float SideKey :=
  match owner, key with
  | .user, .single user => .ok (.user user)
  | .item, .single item => .ok (.item item)
  | .pair, .parts [user, item] => .ok (.pair user item)
  | _, _ => .error .lengthMismatch

/-- The side information of an owner as offers. -/
def offers (owner : SideOwner) (vectors : SideVectors) :
    Outcome Float (List (SideKey × Vec Float)) :=
  vectors.mapM fun (key, v) => do return (← sideKey owner key, v)

/-- Reads side information, if there is a file of it. -/
def loadSide (folder : Folder) (separator : String) (owner : SideOwner) (file : Option String) :
    Outcome Float (List String × SideVectors) :=
  match file with
  | none => .ok ([], [])
  | some path => do
    let key := keyColumns owner
    let frame ← folder.table path separator (sideColumns key)
    let log := "loading " ++ sideWord owner ++ " side information from " ++ path
    return ([log], ← frame.sideVectors key none)

/-- The size that the store needs for side information: that of the first
vector, or zero. -/
def sizeFor (vectors : SideVectors) : Int :=
  match vectors with
  | [] => 0
  | (_, v) :: _ => v.size

/-- The parameters for side information of the given sizes. -/
def sideParams (user item dynamic : SideVectors) : Params Float :=
  .ofList [
    (Field.sideInfo.name, .flag true),
    (Field.userSideSize.name, .ofInt (sizeFor user)),
    (Field.itemSideSize.name, .ofInt (sizeFor item)),
    (Field.dynamicSideSize.name, .ofInt (sizeFor dynamic))]

/-- The settings of the algorithm.  Parameters that are off count as none,
unless there is side information: its sizes have to be added to them. -/
def configFor (h : Hypothesis) (params : Setting Float) (user item dynamic : SideVectors) :
    Outcome Float (LearnerConfig Float) :=
  if user.isEmpty && item.isEmpty && dynamic.isEmpty then
    if params.isOn then do h.config (← paramsOf params) else .ok h.defaultConfig
  else
    match params with
    | .table entries =>
      h.config ((sideParams user item dynamic).entries.foldl (fun t e => t.insert e.1 e.2)
        (.ofList entries))
    | _ => .error .noParameters

/-- Reads the parameters, if there is a file of them. -/
def loadParams (folder : Folder) (file : Option String) :
    Outcome Float (List String × Setting Float) :=
  match file with
  | none => .ok ([], .table [])
  | some path => do
    return (["using parameters from " ++ path], ← readSetting (← folder.text path))

/-- Trains and scores an algorithm. -/
def execute (s : Settings) (folder : Folder) (draws : Draws Float) : Outcome Float Answer := do
  let _ ← s.seed.mapM seedOption
  let train ← folder.frame s.trainPath
  let test ← folder.frame s.testPath
  let loaded := s!"loaded {train.size} training and {test.size} " ++ s.testName ++ " ratings"
  let (userLog, user) ← loadSide folder s.separator .user s.userSide
  let (itemLog, item) ← loadSide folder s.separator .item s.itemSide
  let (dynamicLog, dynamic) ← loadSide folder s.separator .pair s.dynamicSide
  let h ← Hypothesis.algorithm s.algorithm
  let (paramsLog, params) ← loadParams folder s.params
  let recommender ← (← configFor h params user item dynamic).recommender draws
  let offset ← s.offset.mapM realOption
  let base := Experiment.ofRecommender recommender h.predictsValue train test
  let experiment ← { base with
    eachEpoch := s.convergence
    userBased := s.userBased
    sides := (← offers .user user) ++ (← offers .item item) ++ (← offers .pair dynamic)
    }.shifted (offset.map .real)
  let ((_, reports), trained) ← recommender.evaluate experiment.run
  let predictions ← s.output.mapM fun path => do
    let (predictions, _) ← trained.evaluate experiment.predictions
    folder.checkFrameWritable path
    return predictions
  return {
    log := [loaded] ++ userLog ++ itemLog ++ dynamicLog ++ ["using algorithm " ++ s.algorithm] ++
      paramsLog ++ s.output.toList.map ("saving predictions to " ++ ·)
    reports
    predictions }

end LatentFactors.Command.Run
