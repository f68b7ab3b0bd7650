import LatentFactors.Config

/-!
# Ready-made algorithms

There is one algorithm for each hypothesis.  It has default settings, it can
be configured by named parameters, and it has a space of parameters to search
for good ones.

A point of the space is drawn by one random number for each parameter.
-/

namespace LatentFactors

/-- The distributions that parameters are drawn from. -/
inductive Distribution (α : Type) where
  /-- The number `shift + k` for `k` from one to `count`, with a weight of
  `1 / k`. -/
  | zipf (count : Nat) (shift : Int)
  /-- A number between two bounds, with a uniform logarithm. -/
  | logUniform (low high : α)
  /-- An integer from `low` to `high - 1`. -/
  | integers (low high : Int)
  deriving DecidableEq, Repr

namespace Distribution

variable {α : Type} [Scalar α]

/-- The running sums of `1 / k` for `k` from one to `count`. -/
def harmonics (count : Nat) : List α :=
  Scalar.running ((List.range count).map fun (k : Nat) => 1 / Scalar.ofInt (k + 1))

/-- The value for a draw `u`. -/
def sample (u : α) : Distribution α → Outcome α (Numeral α)
  | zipf count shift =>
    let sums := harmonics count
    let all := sums.getLast?.getD 0
    .ok (.integer (shift + (sums.takeWhile fun s => !Scalar.atMost u (s / all)).length + 1))
  | logUniform low high =>
    .ok (.real (Scalar.exp (Scalar.log low + u * (Scalar.log high - Scalar.log low))))
  | integers low high => do
    return .integer (low + (← Outcome.whole (.real (u * Scalar.ofInt (high - low)))))

end Distribution

/-- A point of a search space. -/
abbrev Point (α : Type) := List (Field × Numeral α)

/-- The named parameters of a point. -/
def Point.params {α : Type} (point : Point α) : Params α :=
  Table.ofList (point.map fun (field, n) => (field.name, .number n))

namespace Hypothesis

variable {α : Type} [Scalar α]

/-- Looks up an algorithm by its name in capitals. -/
def algorithm? (name : String) : Option Hypothesis := all.find? (·.name == name)

/-- Looks up an algorithm, or tells that there is none. -/
def algorithm (name : String) : Outcome α Hypothesis :=
  match algorithm? name with
  | some h => .ok h
  | none => .error (.unknownAlgorithm name)

/-- The parameter name of a hypothesis. -/
def parameter (h : Hypothesis) : String := h.name.toLower

/-- The number of classes of an algorithm unless another one is given. -/
def defaultClasses : Hypothesis → Option Int
  | ols | poisson => none
  | logistic => some 2
  | softmax | ordinal => some 5

/-- The settings of an algorithm without parameters.  Counts grow with the
exponential of the score, so their steps are kept smaller. -/
def defaultConfig (h : Hypothesis) : LearnerConfig α :=
  let named := LearnerConfig.default.set .hypothesis (.text h.parameter)
  let counted := match h.defaultClasses with
    | some n => named.set .classes (.ofInt n)
    | none => named
  match h with
  | ordinal => counted.set .ordinal (.flag true)
  | poisson => counted.set .learningRate (.ofReal (Scalar.decimal 1 3))
  | _ => counted

/-- Completes parameters by what the algorithm fixes. -/
def complete (h : Hypothesis) (params : Params α) : Params α :=
  let params := match h.defaultClasses with
    | some n =>
      if params.contains Field.classes.name then params
      else params.insert Field.classes.name (.ofInt n)
    | none => params
  let params := params.insert Field.hypothesis.name (.text h.parameter)
  if h = .ordinal then params.insert Field.ordinal.name (.flag true) else params

/-- The settings of an algorithm with parameters. -/
def config (h : Hypothesis) (params : Params α) : Outcome α (LearnerConfig α) :=
  LearnerConfig.ofParams (h.complete params)

/-- The largest number of factors that is searched. -/
def searchedFactors : Hypothesis → Nat
  | softmax => 96
  | _ => 246

/-- The learning rates that are searched. -/
def searchedRates : Hypothesis → Distribution α
  | poisson => .logUniform (Scalar.decimal 1 5) (Scalar.decimal 1 2)
  | _ => .logUniform (Scalar.decimal 1 4) (Scalar.decimal 1 1)

/-- The parameters to search, with their distributions. -/
def searchSpace (h : Hypothesis) : List (Field × Distribution α) :=
  let penalties : Distribution α := .logUniform (Scalar.decimal 1 5) (Scalar.decimal 1 1)
  let cuts : Distribution α := .logUniform (Scalar.decimal 1 6) (Scalar.decimal 1 2)
  [(.factorSize, .zipf h.searchedFactors 4), (.learningRate, h.searchedRates),
    (.biasPenalty, penalties), (.factorPenalty, penalties)] ++
    (if h = .ordinal then [(.cutPenalty, cuts)] else []) ++
    [(.epochs, .integers 5 50)]

/-- Draws a point of the search space. -/
def samplePoint (h : Hypothesis) (draws : Draws α) : Outcome α (Point α × Draws α) := do
  let space := h.searchSpace
  let (us, rest) := draws.take space.length
  let point ← (space.zip us).mapM fun ((field, distribution), u) => do
    return (field, ← distribution.sample u)
  return (point, rest)

end Hypothesis

end LatentFactors
