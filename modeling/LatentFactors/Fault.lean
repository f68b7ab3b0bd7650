import LatentFactors.Hypothesis.Basic
import LatentFactors.Numeral

/-!
# Reasons to fail

Every way in which an operation can fail is a constructor of `Fault`, with
the numbers that tell one failure from another.  `Fault.message` is the only
place where failures are put into words.  A failure without words of its own,
such as an index out of range, has no message.

A setting that a failure is about is kept as it is spelled.
-/

namespace LatentFactors

/-- What a piece of side information belongs to. -/
inductive SideOwner where
  | user
  | item
  | pair
  deriving DecidableEq, Repr

/-- The words for side information of an owner. -/
def SideOwner.phrase : SideOwner → String
  | user => "user side info"
  | item => "item side info"
  | pair => "dynamic side info"

/-- Why an operation failed. -/
inductive Fault (α : Type) where
  /-- An index outside of a vector or list. -/
  | indexOutOfRange
  /-- A vector with less than no entries. -/
  | negativeSize
  /-- A vector operation on different cardinalities. -/
  | cardinalityMismatch (left right : Nat)
  /-- Lists of different lengths, neither of them a single number. -/
  | lengthMismatch
  /-- No element to choose from. -/
  | nothingToChoose
  /-- The whole part of a number that has none. -/
  | wholePart (reason : NoWholePart)
  /-- A number beyond the range of what has to hold it. -/
  | tooLarge
  /-- An undefined or infinite number in a column of integers. -/
  | notAnIntegerColumn
  /-- A hypothesis name that is not known. -/
  | unknownHypothesis (name : String)
  /-- A gradient rule that is not known. -/
  | unknownRule
  /-- A softmax prediction over fewer than three scores. -/
  | tooFewScores
  /-- Families with different numbers of vectors in a linear combination. -/
  | familyMismatch (users items : Nat)
  /-- Features and parameters with different numbers of vectors in a prediction. -/
  | featureMismatch (features parameters : Nat)
  /-- Class features that do not go with the parameter vectors. -/
  | classFeatureMismatch (features parameters : Nat)
  /-- An ordinal prediction without thresholds. -/
  | predictionNeedsCuts
  /-- An ordinal factor gradient, which has no thresholds. -/
  | gradientNeedsCuts
  /-- The default gradient of a family that does not have one vector. -/
  | needsOneVector (got : Nat)
  /-- The softmax gradient of a single vector. -/
  | needsSeveralVectors
  /-- A label that is not one of the classes. -/
  | labelOutside (label : Numeral α) (classes : Int)
  /-- A target of a binary response outside of the unit interval. -/
  | targetOutside (target : Numeral α)
  /-- A parameter and a feature vector of different cardinalities. -/
  | parameterMismatch (parameter feature : Nat)
  /-- A list of thresholds of the wrong length. -/
  | cutCount (expected got : Nat)
  /-- Side information of the wrong cardinality. -/
  | sideCardinality (owner : SideOwner) (got : Nat) (expected : String)
  /-- A size that no vector has. -/
  | noSize
  /-- A point prediction where a distribution is needed. -/
  | needsDistribution
  /-- A learner without a training rule. -/
  | notImplemented
  /-- A class count that the hypothesis does not admit. -/
  | classCount (hypothesis : Hypothesis) (classes : String)
  /-- The largest feature index does not fit. -/
  | featureOutside (feature : Numeral α) (size : Int)
  /-- Split fractions that are no partition of the unit interval. -/
  | splitFractions (test validation : Numeral α)
  /-- A column that a frame lacks. -/
  | missingColumn (name : String)
  /-- A column with values of the wrong type, or a setting of the wrong type. -/
  | wrongType
  /-- A text in place of a number that a vector is multiplied by. -/
  | textFactor
  /-- A parameter name that is not free. -/
  | reservedName (name : String)
  /-- Scores of users without a user. -/
  | noUsers
  /-- A table over no classes. -/
  | noClasses
  /-- An algorithm that is not known. -/
  | unknownAlgorithm (name : String)
  /-- A text that is no number. -/
  | malformedNumber
  /-- A text that is no JSON. -/
  | malformedJson
  /-- A text with an integer of too many digits. -/
  | longInteger
  /-- Parameters that are no object, where some have to be added. -/
  | noParameters
  /-- A delimited text with a row that is too long, or a misplaced quote. -/
  | malformedRows
  /-- A delimited text with a quote that is not closed behind a byte order mark. -/
  | malformedMark
  /-- A separator that separates nothing. -/
  | unusableSeparator
  /-- A separator that is no pattern. -/
  | malformedPattern
  /-- Two columns of one name. -/
  | repeatedColumn (name : String)
  /-- A file that does not exist. -/
  | fileNotFound (path : String)
  /-- A directory in place of a file. -/
  | isDirectory (path : String)
  /-- A file in place of a directory that another file is in. -/
  | notDirectory (path : String)
  /-- A file in place of a directory that has to be made. -/
  | fileExists (path : String)
  /-- A file in a directory that does not exist. -/
  | cannotWrite (path : String)
  /-- A frame in place of a text. -/
  | notText (path : String)
  /-- A text in place of a frame. -/
  | notFrame (path : String)
  /-- A command line that does not follow its usage. -/
  | usage
  deriving DecidableEq, Repr

namespace Fault

/-- The words for a class count that a hypothesis does not admit. -/
def classCountMessage (h : Hypothesis) (classes : String) : String :=
  match h with
  | .softmax => s!"softmax needs at least 3 classes, got {classes}"
  | .ordinal => s!"ordinal needs at least 2 classes, got {classes}"
  | .logistic => s!"logistic needs 2 classes, got {classes}"
  | .ols | .poisson => s!"{h.name} predicts a single value, got {classes} classes"

/-- The words for a failure, if it has any. -/
def message {α : Type} [Scalar α] : Fault α → Option String
  | cardinalityMismatch left right => s!"cardinality mismatch: {left} != {right}"
  | unknownHypothesis name => s!"unknown hypothesis {name}"
  | tooFewScores => "softmax needs at least 3 classes, use the logistic hypothesis for 2"
  | familyMismatch users items => s!"{users} user vectors but {items} item vectors"
  | featureMismatch features parameters =>
    s!"{features} feature vectors but {parameters} parameter vectors"
  | classFeatureMismatch features parameters =>
    s!"{features} feature vectors for {parameters} parameter vectors"
  | predictionNeedsCuts => "ordinal hypothesis cannot predict without cuts"
  | gradientNeedsCuts => "ordinal gradients need cuts to predict"
  | needsOneVector got => s!"default gradient needs 1 parameter vector, got {got}"
  | needsSeveralVectors => "softmax gradient needs more than one class"
  | labelOutside label classes => s!"label {label.text} outside of {classes} classes"
  | targetOutside target => s!"logistic target {target.text} outside of [0, 1]"
  | parameterMismatch parameter feature =>
    s!"parameter cardinality {parameter} does not match feature cardinality {feature}"
  | cutCount expected got => s!"expected {expected} cuts, got {got}"
  | sideCardinality owner got expected =>
    s!"{owner.phrase} has cardinality {got}, expected {expected}"
  | needsDistribution =>
    "most probable class needs a class distribution, not a point prediction"
  | notImplemented => ""
  | classCount h classes => classCountMessage h classes
  | featureOutside feature size =>
    s!"feature index {feature.text} does not fit in {size} entries"
  | splitFractions test validation =>
    s!"invalid split fractions test={test.text}, validation={validation.text}"
  | _ => none

end Fault

/-- The result of an operation that may fail. -/
abbrev Outcome (α β : Type) := Except (Fault α) β

namespace Outcome

variable {α β : Type}

/-- The element of a list at a place counted from zero. -/
def nth (xs : List β) (i : Nat) : Outcome α β :=
  match xs[i]? with
  | some x => .ok x
  | none => .error .indexOutOfRange

/-- The value of a number, unless it is out of range. -/
def real [Scalar α] (y : Numeral α) : Outcome α α :=
  match y.value? with
  | some x => .ok x
  | none => .error .tooLarge

/-- The whole part of a number, or the reason why it has none. -/
def whole [Scalar α] (y : Numeral α) : Outcome α Int :=
  match y.truncate with
  | .ok n => .ok n
  | .error reason => .error (.wholePart reason)

end Outcome

end LatentFactors
