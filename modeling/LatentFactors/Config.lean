import LatentFactors.Recommender

/-!
# Configuration

A `LearnerConfig` has a setting for every `Field`, and each field has a name.
`LearnerConfig.ofParams` starts from the defaults and takes the named
parameters one by one; names that are no fields are reported by
`unknownNames` and change nothing.

`LearnerConfig.resolve` picks the hypothesis, which has to admit the number
of classes, and `LearnerConfig.recommender` builds the recommender.  Settings
other than the hypothesis and the number of classes are not looked at until
the recommender uses them.
-/

namespace LatentFactors

/-- The fields of a configuration. -/
inductive Field where
  | hypothesis
  | classes
  | ordinal
  | sideInfo
  | factorSize
  | learningRate
  | biasPenalty
  | factorPenalty
  | userSidePenalty
  | itemSidePenalty
  | dynamicSidePenalty
  | cutPenalty
  | userSideSize
  | itemSideSize
  | dynamicSideSize
  | clampCuts
  | epochs
  /-- How to seed random draws; the draws are given to the recommender, so
  the field is accepted and has no effect. -/
  | randomness
  deriving DecidableEq, Repr

namespace Field

/-- All fields. -/
def all : List Field :=
  [hypothesis, classes, ordinal, sideInfo, factorSize, learningRate, biasPenalty,
    factorPenalty, userSidePenalty, itemSidePenalty, dynamicSidePenalty, cutPenalty,
    userSideSize, itemSideSize, dynamicSideSize, clampCuts, epochs, randomness]

/-- The parameter name of a field. -/
def name : Field → String
  | hypothesis => "hypothesis"
  | classes => "classes"
  | ordinal => "ordinal"
  | sideInfo => "side_info"
  | factorSize => "factor_size"
  | learningRate => "learning_rate"
  | biasPenalty => "bias_lambda"
  | factorPenalty => "factor_lambda"
  | userSidePenalty => "user_side_lambda"
  | itemSidePenalty => "item_side_lambda"
  | dynamicSidePenalty => "dynamic_side_lambda"
  | cutPenalty => "cuts_lambda"
  | userSideSize => "user_side_size"
  | itemSideSize => "item_side_size"
  | dynamicSideSize => "dynamic_side_size"
  | clampCuts => "clamp_cuts"
  | epochs => "epochs"
  | randomness => "rng_spec"

/-- The field of a parameter name. -/
def named? (name : String) : Option Field := all.find? (·.name == name)

end Field

/-- The parameter name that is taken by the configuration itself. -/
def reservedName : String := "cls"

/-- Named parameters. -/
abbrev Params (α : Type) := Table String (Setting α)

/-- The settings of a learner. -/
structure LearnerConfig (α : Type) where
  setting : Field → Setting α

namespace LearnerConfig

variable {α : Type}

/-- The settings that are used unless others are given. -/
def default [Scalar α] : LearnerConfig α where
  setting
    | .hypothesis => .absent
    | .classes => .ofInt 1
    | .ordinal => .flag false
    | .sideInfo => .flag false
    | .factorSize => .ofInt 150
    | .learningRate => .ofReal (Scalar.decimal 5 3)
    | .biasPenalty => .ofReal (Scalar.decimal 5 3)
    | .factorPenalty => .ofReal (Scalar.decimal 25 3)
    | .userSidePenalty => .ofReal 0
    | .itemSidePenalty => .ofReal 0
    | .dynamicSidePenalty => .ofReal 0
    | .cutPenalty => .ofReal 0
    | .userSideSize => .ofInt 0
    | .itemSideSize => .ofInt 0
    | .dynamicSideSize => .ofInt 0
    | .clampCuts => .flag true
    | .epochs => .ofInt 50
    | .randomness => .absent

/-- Replaces the setting of a field. -/
def set (c : LearnerConfig α) (field : Field) (s : Setting α) : LearnerConfig α :=
  ⟨fun f => if f = field then s else c.setting f⟩

/-- A replaced setting reads as what it was replaced by, every other field as
before. -/
theorem setting_set (c : LearnerConfig α) (field f : Field) (s : Setting α) :
    (c.set field s).setting f = if f = field then s else c.setting f := rfl

/-- Takes one named parameter; a name that is no field changes nothing. -/
def take (c : LearnerConfig α) (name : String) (s : Setting α) : LearnerConfig α :=
  match Field.named? name with
  | some field => c.set field s
  | none => c

/-- The parameter names that are no fields, in alphabetical order. -/
def unknownNames (params : Params α) : List String :=
  (params.keys.filter fun name => (Field.named? name).isNone).mergeSort fun s t => !(t < s)

/-- The warnings about named parameters. -/
def warnings (params : Params α) : List String :=
  match unknownNames params with
  | [] => []
  | names => ["ignoring unknown parameters " ++ ", ".intercalate names]

variable [Scalar α]

/-- The defaults with the named parameters in their place. -/
def ofParams (params : Params α) : Outcome α (LearnerConfig α) :=
  if params.contains reservedName then .error (.reservedName reservedName)
  else .ok (params.entries.foldl (fun c (name, s) => c.take name s) default)

/-- The hypothesis that goes with a number of classes. -/
def hypothesisFor (classes : Numeral α) : Hypothesis :=
  if classes.isAtMost 1 then .ols else if classes.isExactly 2 then .logistic else .softmax

/-- Whether a hypothesis admits a number of classes.  Any setting can be told
from two, but only numbers are above or below others. -/
def admits (h : Hypothesis) (classes : Setting α) : Outcome α Bool :=
  match h with
  | .softmax => do return !(← classes.numeral).isBelow 3
  | .ordinal => do return !(← classes.numeral).isBelow 2
  | .logistic => .ok (classes.isExactly 2)
  | .ols | .poisson => do return !(← classes.numeral).isAbove 1

/-- The hypothesis of a name. -/
def hypothesisNamed (name : String) : Outcome α Hypothesis :=
  match Hypothesis.named? name with
  | some h => .ok h
  | none => .error (.unknownHypothesis name)

/-- The hypothesis of a configuration, if it admits the number of classes. -/
def resolve (c : LearnerConfig α) : Outcome α Hypothesis := do
  let classes := c.setting .classes
  let h ← match c.setting .hypothesis with
    | .absent =>
      if (c.setting .ordinal).isOn then pure .ordinal
      else pure (hypothesisFor (← classes.numeral))
    | s => hypothesisNamed s.spelling
  if ← admits h classes then return h else throw (.classCount h classes.spelling)

/-- The number of classes that a store has to distinguish, with an array of
thresholds between them.  A number above one has to be written as an
integer. -/
def classCount (classes : Setting α) : Outcome α Int := do
  match ← classes.numeral with
  | .integer n => do
    checkArray (n - 1).toNat
    return n
  | y => if y.isAtMost 1 then return 1 else throw .wrongType

/-- The sizes of the store; classes are ordered if the hypothesis is. -/
def shape (c : LearnerConfig α) (h : Hypothesis) : Outcome α (Shape α) := do
  return {
    factorSize := c.setting .factorSize
    classes := ← classCount (c.setting .classes)
    ordinal := h = .ordinal
    userSideSize := c.setting .userSideSize
    itemSideSize := c.setting .itemSideSize
    dynamicSideSize := c.setting .dynamicSideSize }

/-- The learner of a configuration. -/
def learner (c : LearnerConfig α) (h : Hypothesis) : Learner α where
  gradient := .ofHypothesis h (c.setting .learningRate)
  biasPenalty := c.setting .biasPenalty
  factorPenalty := c.setting .factorPenalty
  cutPenalty := c.setting .cutPenalty
  clampCuts := c.setting .clampCuts
  scope :=
    if (c.setting .sideInfo).isOn then
      .sideInfo (c.setting .userSidePenalty) (c.setting .itemSidePenalty)
        (c.setting .dynamicSidePenalty)
    else .factors

/-- The recommender of a configuration.  Single numbers are estimated by the
prediction, classes by the most probable one. -/
def recommender (c : LearnerConfig α) (draws : Draws α) : Outcome α (Recommender α) := do
  let h ← c.resolve
  let strategy : Strategy := if h.predictsValue then .targetScore else .mostProbable
  let shape ← c.shape h
  return .create (c.learner h) (c.setting .epochs) none strategy (.create shape draws)

end LearnerConfig

end LatentFactors
