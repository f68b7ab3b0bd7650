import LatentFactors.Vec.Basic

/-!
# The indices at which some vector is nonzero

`mergeIndices` joins two ascending lists of indices into one without
repetitions, and `supportUnion` joins the nonzero indices of several vectors.
An index belongs to the union exactly when it belongs to one of the lists.
`nonzeroUnion` is the union as it is computed, which takes vectors whose
entries can be listed.
-/

namespace LatentFactors

/-- Joins two ascending lists; an index of both is listed once. -/
def mergeIndices : List Nat → List Nat → List Nat
  | [], js => js
  | is, [] => is
  | i :: is, j :: js =>
    if i < j then i :: mergeIndices is (j :: js)
    else if j < i then j :: mergeIndices (i :: is) js
    else i :: mergeIndices is js
termination_by is js => is.length + js.length

/-- An index is in the union exactly when it is in one of the lists. -/
theorem mem_mergeIndices {k : Nat} (is js : List Nat) :
    k ∈ mergeIndices is js ↔ k ∈ is ∨ k ∈ js := by
  fun_induction mergeIndices is js with
  | case1 js => simp
  | case2 is _ => simp
  | case3 i is j js _ ih => simp [ih, or_assoc]
  | case4 i is j js _ _ ih =>
    simp only [List.mem_cons, ih]
    grind
  | case5 i is j js _ _ ih =>
    simp only [List.mem_cons, ih]
    grind

/-- The indices at which one of the vectors is nonzero. -/
def supportUnion {α : Type} [Scalar α] (vs : Family α) : List Nat :=
  vs.foldr (fun v is => mergeIndices v.support is) []

/-- Lists the indices at which one of the vectors is nonzero. -/
def nonzeroUnion {α : Type} [Scalar α] (vs : Family α) : Outcome α (List Nat) := do
  vs.forM Vec.checkListable
  return supportUnion vs

end LatentFactors
