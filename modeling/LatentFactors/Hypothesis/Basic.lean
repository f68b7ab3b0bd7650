/-!
# Response distributions

A hypothesis fixes how a linear score turns into a prediction: as a numeric
value, a count, or the probabilities of two, of several unordered or of
several ordered classes.
-/

namespace LatentFactors

/-- The supported response distributions. -/
inductive Hypothesis where
  /-- Numeric responses with squared loss. -/
  | ols
  /-- Two classes. -/
  | logistic
  /-- Three or more unordered classes. -/
  | softmax
  /-- Two or more ordered classes, with one threshold between neighbours. -/
  | ordinal
  /-- Counts with an exponential link. -/
  | poisson
  deriving DecidableEq, Repr

namespace Hypothesis

/-- All hypotheses. -/
def all : List Hypothesis := [ols, logistic, softmax, ordinal, poisson]

/-- The name of a hypothesis in capitals. -/
def name : Hypothesis → String
  | ols => "OLS"
  | logistic => "LOGISTIC"
  | softmax => "SOFTMAX"
  | ordinal => "ORDINAL"
  | poisson => "POISSON"

/-- Whether a single number is predicted instead of classes. -/
def predictsValue : Hypothesis → Bool
  | ols | poisson => true
  | logistic | softmax | ordinal => false

/-- The description of a hypothesis. -/
def description (h : Hypothesis) : String := "Hypothesis(" ++ h.name ++ ")"

/-- Looks up a hypothesis by its name; letters of either case are accepted. -/
def named? (name : String) : Option Hypothesis :=
  all.find? fun h => h.name.toLower == name.toLower

end Hypothesis

end LatentFactors
