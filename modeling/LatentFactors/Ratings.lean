import LatentFactors.Draws
import LatentFactors.Frame

/-!
# Splitting and shifting ratings

`SplitFractions.assign` sends every rating to the test, the validation or the
training part, by one random draw for each rating.  `shiftRatings` subtracts
an offset from the ratings of a frame, which turns stars into class labels.
-/

namespace LatentFactors

/-- The parts of a split. -/
inductive Part where
  | train
  | validation
  | test
  deriving DecidableEq, Repr

/-- The fractions of the ratings for testing and validation. -/
structure SplitFractions (α : Type) where
  test : Numeral α
  validation : Numeral α

namespace SplitFractions

variable {α : Type} [Scalar α]

/-- The sum of both fractions. -/
def held (f : SplitFractions α) : Outcome α (Numeral α) :=
  match f.test, f.validation with
  | .integer m, .integer n => .ok (.integer (m + n))
  | x, y => do
    let test ← Outcome.real x
    return .real (test + (← Outcome.real y))

/-- Refuses negative fractions and those that exceed one in sum, and gives the
sum of the others. -/
def check (f : SplitFractions α) : Outcome α α := do
  if f.test.isBelow 0 || f.validation.isBelow 0 then
    throw (.splitFractions f.test f.validation)
  let held ← f.held
  if held.isAbove 1 then throw (.splitFractions f.test f.validation)
  return held.value

/-- The part for a draw, given the sum of both fractions. -/
def partOf (f : SplitFractions α) (held u : α) : Part :=
  if Scalar.less u f.test.value then .test
  else if Scalar.less u held then .validation
  else .train

/-- The parts of `n` ratings. -/
def assign (f : SplitFractions α) (n : Nat) (draws : Draws α) : Outcome α (List Part) := do
  let held ← f.check
  return (draws.take n).1.map (f.partOf held)

end SplitFractions

/-- The rows of one part of a split. -/
def rowsIn (part : Part) (parts : List Part) : List Nat :=
  (parts.zipIdx.filter (·.1 = part)).map (·.2)

/-- What is reported about a split. -/
def splitReport (parts : List Part) : String :=
  s!"split {parts.length} ratings into {(rowsIn .train parts).length} train, " ++
    s!"{(rowsIn .validation parts).length} validation, {(rowsIn .test parts).length} test"

/-- Subtracts an offset from the ratings of a frame. -/
def shiftRatings {α : Type} [Scalar α] (offset : Numeral α) (f : Frame α) :
    Outcome α (Frame α) := do
  return f.assign "rating" (← (← f.column "rating").shift offset)

end LatentFactors
