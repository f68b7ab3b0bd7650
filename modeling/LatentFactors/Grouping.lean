/-!
# Groups of rows

Rows are grouped by a list of keys, one for each row.  `distinct` lists the
keys by first appearance, and `rowsOf` the rows of one key in their order.
`distinctSome` and `rowsOf` leave out the rows without a key.
-/

namespace LatentFactors

variable {κ : Type} [DecidableEq κ]

/-- The elements of a list, each one where it appears first. -/
def distinct : List κ → List κ
  | [] => []
  | k :: ks => k :: (distinct ks).filter (· ≠ k)

/-- The elements that are present, each one where it appears first. -/
def distinctSome (keys : List (Option κ)) : List κ := distinct (keys.filterMap id)

/-- The positions of a key in a list of optional keys. -/
def rowsOf (k : κ) (keys : List (Option κ)) : List Nat :=
  (keys.zipIdx.filter (·.1 = some k)).map (·.2)

/-- No element of a list is lost, and none is added. -/
theorem mem_distinct {k : κ} (ks : List κ) : k ∈ distinct ks ↔ k ∈ ks := by
  induction ks with
  | nil => simp [distinct]
  | cons x xs ih =>
    by_cases h : k = x <;> simp [distinct, ih, h]

/-- No element is listed twice. -/
theorem nodup_distinct (ks : List κ) : (distinct ks).Nodup := by
  induction ks with
  | nil => exact List.nodup_nil
  | cons x xs ih =>
    exact List.nodup_cons.2 ⟨by simp, ih.filter _⟩

end LatentFactors
