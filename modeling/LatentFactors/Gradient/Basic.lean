import LatentFactors.Hypothesis.Prediction
import LatentFactors.Setting

/-!
# Gradients

A gradient gives, for one index of a family of parameter vectors, the steps
of the regularized log-likelihood: one step for each class, scaled by the
learning rate.  Rates and penalties are settings, which are looked at only
where something is multiplied by them.

* `Gradient.steps` is the step of every class at one index, by the rule of the
  gradient.
* `Gradient.cutSteps` is the step of the ordinal thresholds.
* `Gradient.checkLabel` tells whether an observed value can be learned.

Index zero is the intercept.  Its step has no penalty, and for single values
and unordered classes it has no feature factor either.
-/

namespace LatentFactors

/-- The rules for gradients. -/
inductive GradientRule where
  /-- One parameter vector and the error of a single prediction. -/
  | default
  /-- One parameter vector and one error for each class. -/
  | softmax
  /-- One parameter vector, shared by ordered classes. -/
  | ordinal
  deriving DecidableEq, Repr

namespace GradientRule

/-- The name of a rule in capitals. -/
def name : GradientRule → String
  | default => "DEFAULT"
  | softmax => "SOFTMAX"
  | ordinal => "ORDINAL"

/-- Looks up a rule by its name; letters of either case are accepted. -/
def named? (name : String) : Option GradientRule :=
  [default, softmax, ordinal].find? fun r => r.name.toLower == name.toLower

/-- The rule that goes with a hypothesis. -/
def ofHypothesis : Hypothesis → GradientRule
  | .ols | .logistic | .poisson => default
  | .softmax => softmax
  | .ordinal => ordinal

end GradientRule

/-- The features that a family of parameter vectors is paired with. -/
inductive Features (α : Type) where
  /-- One vector for all classes. -/
  | shared (feature : Vec α)
  /-- One vector for each class. -/
  | perClass (features : Family α)

namespace Features

variable {α : Type}

/-- The different feature vectors. -/
def vectors : Features α → Family α
  | shared f => [f]
  | perClass fs => fs

/-- The feature vector of each of `n` classes. -/
def forClasses (features : Features α) (n : Nat) : Outcome α (Family α) :=
  match features with
  | shared f => .ok (List.replicate n f)
  | perClass fs =>
    if fs.length ≠ n then .error (.classFeatureMismatch fs.length n) else .ok fs

end Features

/-- One if class `i` is the observed label, zero otherwise. -/
def indicator {α : Type} [Scalar α] (i : Int) (y : Numeral α) : Outcome α α := do
  return if i = (← Outcome.whole y) then 1 else 0

/-- A gradient rule with the hypothesis it serves and the learning rate. -/
structure Gradient (α : Type) where
  rule : GradientRule
  hypothesis : Hypothesis
  rate : Setting α

namespace Gradient

variable {α : Type} [Scalar α]

/-- The gradient that goes with a hypothesis. -/
def ofHypothesis (h : Hypothesis) (rate : Setting α) : Gradient α :=
  ⟨.ofHypothesis h, h, rate⟩

/-- The description of a gradient. -/
def description (g : Gradient α) : String :=
  "StochasticGradient(" ++ g.rule.name ++ ", lr=" ++ g.rate.spelling ++ ")"

/-- Whether an observed value can be learned: a class below `classes` for
softmax and ordinal rules, and a value in the unit interval for a binary
response. -/
def checkLabel (g : Gradient α) (y : Numeral α) (classes : Int) : Outcome α Unit :=
  match g.rule with
  | .softmax | .ordinal => do
    let label ← Outcome.whole y
    if y.isExactly label && 0 ≤ label && label < classes then return ()
    else throw (.labelOutside y classes)
  | .default =>
    match g.hypothesis with
    | .logistic =>
      if Scalar.atMost 0 y.value && Scalar.atMost y.value 1 then .ok ()
      else .error (.targetOutside y)
    | _ => .ok ()

/-- The class of an observed value in a prediction. -/
def labelIn (y : Numeral α) (prediction : List α) : Outcome α Nat := do
  let label ← Outcome.whole y
  if 0 ≤ label && label < prediction.length then return label.toNat
  else throw (.labelOutside y prediction.length)

/-- The product of a probability and its complement: the slope of the logistic
function where it has that value. -/
def slope (p : α) : α := p * (1 - p)

/-- The slopes at the cumulative probabilities below and above class `c`.
Nothing is below the first class. -/
def slopesAround (prediction : List α) (c : Nat) : Outcome α (α × α) := do
  let cumulative := Scalar.running prediction
  let above := slope (← Outcome.nth cumulative c)
  if c = 0 then return (0, above)
  else return (slope (← Outcome.nth cumulative (c - 1)), above)

/-- The direction of one class at an index: the error at the intercept, and
elsewhere the error times the feature, less the penalty times the
parameter. -/
def direction (index : Int) (err : α) (feature parameter : Vec α) (penalty : Setting α) :
    Outcome α α :=
  if index = 0 then .ok err
  else do
    let x ← feature.get index
    let p ← parameter.get index
    return x * err - (← penalty.factor) * p

/-- The step by the default rule. -/
def defaultSteps (g : Gradient α) (index : Int) (y : Numeral α)
    (parameters features : Family α) (prediction : List α) (penalty : Setting α) :
    Outcome α (List α) :=
  match parameters with
  | [parameter] => do
    let p ← Outcome.nth prediction 0
    let err := (← Outcome.real y) - p
    let d ← direction index err (← Outcome.nth features 0) parameter penalty
    return [(← g.rate.factor) * d]
  | _ => .error (.needsOneVector parameters.length)

/-- The steps by the softmax rule: the error of a class is its indicator less
its probability. -/
def softmaxSteps (g : Gradient α) (index : Int) (y : Numeral α)
    (parameters features : Family α) (prediction : List α) (penalty : Setting α) :
    Outcome α (List α) :=
  if parameters.length = 1 then .error .needsSeveralVectors
  else do
    let label ← labelIn y prediction
    let directions ← (features.zip parameters).zipIdx.mapM fun ((feature, parameter), c) => do
      let err := (if c = label then 1 else 0) - (← Outcome.nth prediction c)
      direction index err feature parameter penalty
    let rate ← g.rate.vectorFactor
    return directions.map (rate * ·)

/-- The step by the ordinal rule. -/
def ordinalSteps (g : Gradient α) (index : Int) (y : Numeral α)
    (parameters features : Family α) (prediction : List α) (penalty : Setting α) :
    Outcome α (List α) := do
  let c ← labelIn y prediction
  let feature ← (← Outcome.nth features 0).get index
  let (below, above) ← slopesAround prediction c
  let lower := if c = 0 then 0 else below * -feature
  let gain := (above * -feature - lower) / (← Outcome.nth prediction c)
  if index = 0 then return [(← g.rate.factor) * gain]
  else
    let p ← (← Outcome.nth parameters 0).get index
    let d := gain - (← penalty.factor) * p
    return [(← g.rate.factor) * d]

/-- The step of every class at one index of a family. -/
def steps (g : Gradient α) (index : Int) (y : Numeral α) (parameters : Family α)
    (features : Features α) (prediction : List α) (penalty : Setting α) :
    Outcome α (List α) := do
  let fs ← features.forClasses parameters.length
  match g.rule with
  | .default => g.defaultSteps index y parameters fs prediction penalty
  | .softmax => g.softmaxSteps index y parameters fs prediction penalty
  | .ordinal => g.ordinalSteps index y parameters fs prediction penalty

/-- The steps of user vectors, with the prediction made from the user and item
vectors themselves. -/
def factorSteps (g : Gradient α) (index : Int) (y : Numeral α) (users items : Family α)
    (penalty : Setting α) : Outcome α (List α) :=
  match g.rule with
  | .ordinal => .error .gradientNeedsCuts
  | _ => do
    let prediction ← g.hypothesis.predictFeatures users items
    g.steps index y users (.perClass items) prediction penalty

/-- The step of the ordinal thresholds.  All increments up to the lower end of
the observed class move together, and the one at its upper end moves with the
upper slope; the last class has no upper end.  The other rules leave the
thresholds alone. -/
def cutSteps (g : Gradient α) (y : Numeral α) (cuts scores : List α) (penalty : Setting α) :
    Outcome α (List α) :=
  match g.rule with
  | .ordinal => do
    let probabilities ← g.hypothesis.predict scores
    let c ← labelIn y probabilities
    let p ← Outcome.nth probabilities c
    let (below, above) ← slopesAround probabilities c
    if c ≠ scores.length && cuts.length ≤ c then throw .indexOutOfRange
    let gain (i : Nat) : α :=
      if i < c then (above - below) / p
      else if i = c && c ≠ scores.length then above / p
      else 0
    let penalty ← penalty.vectorFactor
    let rate ← g.rate.vectorFactor
    return cuts.mapIdx fun i cut => rate * (gain i - penalty * cut)
  | _ => .ok (List.replicate cuts.length 0)

end Gradient

end LatentFactors
