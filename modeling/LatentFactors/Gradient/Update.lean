import LatentFactors.Gradient.Basic
import LatentFactors.Vec.IndexUnion

/-!
# One update of a family and of the thresholds

`Gradient.updateFamily` adds the steps of a gradient to a family of parameter
vectors, at every index where one of the paired features is nonzero.  All
steps are computed from the old vectors, and an index that several features
share is updated once.

`Gradient.updateCuts` adds the steps of the ordinal thresholds and keeps the
increments after the first one above zero.
-/

namespace LatentFactors

/-- The penalties of a family.  The bias entries have a penalty of their
own. -/
structure Penalties (α : Type) where
  usual : Setting α
  bias : Setting α
  biasIndices : List Int

/-- The penalty of an index. -/
def Penalties.forIndex {α : Type} (p : Penalties α) (index : Int) : Setting α :=
  if index ∈ p.biasIndices then p.bias else p.usual

namespace Gradient

variable {α : Type} [Scalar α]

/-- The smallest increment that is left between thresholds. -/
def minIncrement : α := Scalar.decimal 1 6

/-- The first parameter and feature vectors of different sizes, if any. -/
def findMismatch (parameters features : Family α) : Option (Nat × Nat) :=
  parameters.findSome? fun p =>
    features.findSome? fun f => if p.size = f.size then none else some (p.size, f.size)

/-- Writes the stepped entry of every class at one index.  `old` holds the
vectors to step from and `new` those to write to. -/
def writeSteps (index : Int) (steps : List α) (old new : Family α) :
    Outcome α (Family α) :=
  (old.zip new).zipIdx.mapM fun ((o, n), c) => do
    n.put index ((← o.get index) + (← Outcome.nth steps c))

/-- Updates a family at every index where a feature vector is nonzero, except
for one index if `kept` names it. -/
def updateFamily (g : Gradient α) (parameters : Family α) (features : Features α)
    (y : Numeral α) (prediction : List α) (penalties : Penalties α) (kept : Option Int) :
    Outcome α (Family α) :=
  match findMismatch parameters features.vectors with
  | some (p, f) => .error (.parameterMismatch p f)
  | none =>
    if features.vectors.isEmpty then .error .nothingToChoose
    else do
      let indices := (← nonzeroUnion features.vectors).filter fun (i : Nat) => kept ≠ some (i : Int)
      indices.foldlM (fun new (i : Nat) => do
        let steps ← g.steps i y parameters features prediction (penalties.forIndex i)
        writeSteps i steps parameters new) parameters

/-- Raises all increments but the first to the smallest one allowed. -/
def clamp : List α → List α
  | [] => []
  | first :: increments => first :: increments.map (Scalar.larger · minIncrement)

/-- Updates the thresholds, clamping them if `clamped`. -/
def updateCuts (g : Gradient α) (y : Numeral α) (cuts scores : List α) (penalty : Setting α)
    (clamped : Bool) : Outcome α (List α) := do
  let new := List.zipWith (· + ·) cuts (← g.cutSteps y cuts scores penalty)
  return if clamped then clamp new else new

end Gradient

end LatentFactors
