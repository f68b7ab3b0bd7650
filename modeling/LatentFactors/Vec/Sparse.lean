import LatentFactors.Scalar

/-!
# Sparse vectors

A `SparseVec` keeps the entries that differ from zero, by ascending index.
Order and bounds are part of the type, so two sparse vectors with the same
entries are the same vector, and no index occurs twice.

`set` writes one entry: a zero removes the entry, any other number replaces
it or finds its place among the neighbours.
-/

namespace LatentFactors

/-- A vector of `size` entries that stores some of them by ascending index. -/
structure SparseVec (α : Type) where
  size : Nat
  entries : List (Nat × α)
  sorted : entries.Pairwise (fun a b => a.1 < b.1)
  bounded : ∀ e ∈ entries, e.1 < size

namespace SparseVec

variable {α : Type}

/-- The vector without stored entries. -/
def zero (size : Nat) : SparseVec α := ⟨size, [], .nil, by simp⟩

/-! ## Lists of entries -/

/-- Replaces the entry at an index, or adds one before the first larger
index. -/
def insertEntry (i : Nat) (x : α) : List (Nat × α) → List (Nat × α)
  | [] => [(i, x)]
  | e :: rest =>
    if i < e.1 then (i, x) :: e :: rest
    else if e.1 < i then e :: insertEntry i x rest
    else (i, x) :: rest

/-- Removes the entry at an index. -/
def eraseEntry (i : Nat) (entries : List (Nat × α)) : List (Nat × α) :=
  entries.filter (·.1 ≠ i)

/-- The number at an index, zero if none is stored. -/
def findEntry [Zero α] (i : Nat) : List (Nat × α) → α
  | [] => 0
  | e :: rest => if e.1 = i then e.2 else findEntry i rest

/-- Insertion adds no index but the given one. -/
theorem fst_of_mem_insertEntry {i : Nat} {x : α} {e : Nat × α}
    {entries : List (Nat × α)} (h : e ∈ insertEntry i x entries) :
    e.1 = i ∨ e ∈ entries := by
  induction entries with
  | nil =>
    rw [insertEntry, List.mem_singleton] at h
    exact Or.inl (by rw [h])
  | cons a rest ih =>
    rw [insertEntry] at h
    split at h
    · rcases List.mem_cons.1 h with rfl | h
      · exact Or.inl rfl
      · exact Or.inr h
    · split at h
      · rcases List.mem_cons.1 h with rfl | h
        · exact Or.inr List.mem_cons_self
        · exact (ih h).imp_right (List.mem_cons_of_mem a)
      · rcases List.mem_cons.1 h with rfl | h
        · exact Or.inl rfl
        · exact Or.inr (List.mem_cons_of_mem a h)

/-- Insertion keeps the indices ascending. -/
theorem sorted_insertEntry {i : Nat} {x : α} {entries : List (Nat × α)}
    (h : entries.Pairwise (fun a b => a.1 < b.1)) :
    (insertEntry i x entries).Pairwise (fun a b => a.1 < b.1) := by
  induction entries with
  | nil => simp [insertEntry]
  | cons a rest ih =>
    obtain ⟨ha, hrest⟩ := List.pairwise_cons.1 h
    rw [insertEntry]
    split
    · rename_i hlt
      refine List.pairwise_cons.2 ⟨fun b hb => ?_, h⟩
      rcases List.mem_cons.1 hb with rfl | hb
      · exact hlt
      · exact Nat.lt_trans hlt (ha b hb)
    · split
      · rename_i hlt
        refine List.pairwise_cons.2 ⟨fun b hb => ?_, ih hrest⟩
        rcases fst_of_mem_insertEntry hb with hb | hb
        · rw [hb]
          exact hlt
        · exact ha b hb
      · rename_i hge hle
        have heq : i = a.1 := by omega
        refine List.pairwise_cons.2 ⟨fun b hb => ?_, hrest⟩
        rw [heq]
        exact ha b hb

/-- What is read after an insertion. -/
theorem findEntry_insertEntry [Zero α] (i j : Nat) (x : α) (entries : List (Nat × α)) :
    findEntry j (insertEntry i x entries) =
      if i = j then x else findEntry j entries := by
  induction entries with
  | nil => simp [insertEntry, findEntry]
  | cons a rest ih =>
    rw [insertEntry]
    split
    · simp [findEntry]
    · split
      · rw [findEntry, findEntry, ih]
        by_cases hj : a.1 = j
        · have hne : i ≠ j := by omega
          simp [hj, hne]
        · simp [hj]
      · have heq : i = a.1 := by omega
        simp only [findEntry, heq]
        by_cases hj : a.1 = j <;> simp [hj]

/-- What is read after a removal. -/
theorem findEntry_eraseEntry [Zero α] (i j : Nat) (entries : List (Nat × α)) :
    findEntry j (eraseEntry i entries) = if i = j then 0 else findEntry j entries := by
  induction entries with
  | nil => simp [eraseEntry, findEntry]
  | cons a rest ih =>
    by_cases hi : a.1 = i
    · have hrest : eraseEntry i (a :: rest) = eraseEntry i rest := by
        simp [eraseEntry, hi]
      rw [hrest, ih, findEntry]
      by_cases hj : i = j <;> simp [hi, hj]
    · have hrest : eraseEntry i (a :: rest) = a :: eraseEntry i rest := by
        simp [eraseEntry, hi]
      rw [hrest, findEntry, findEntry, ih]
      by_cases hj : a.1 = j
      · have hne : i ≠ j := fun h => hi (hj.trans h.symm)
        simp [hj, hne]
      · simp [hj]

/-! ## Operations -/

/-- The number at an index, zero outside of the stored entries. -/
def entry [Zero α] (v : SparseVec α) (i : Nat) : α := findEntry i v.entries

/-- Writes one entry; a zero is removed instead of stored. -/
def set [Scalar α] (v : SparseVec α) (i : Nat) (x : α) (h : i < v.size) : SparseVec α :=
  if Scalar.nonzero x then
    ⟨v.size, insertEntry i x v.entries, sorted_insertEntry v.sorted, fun _ he =>
      (fst_of_mem_insertEntry he).elim (fun heq => heq ▸ h) (v.bounded _)⟩
  else
    ⟨v.size, eraseEntry i v.entries, v.sorted.filter _, fun _ he =>
      v.bounded _ (List.mem_filter.1 he).1⟩

/-- The indices of the entries that differ from zero, ascending. -/
def support [Scalar α] (v : SparseVec α) : List Nat :=
  (v.entries.filter fun e => Scalar.nonzero e.2).map (·.1)

@[simp] theorem size_set [Scalar α] (v : SparseVec α) (i : Nat) (x : α) (h : i < v.size) :
    (v.set i x h).size = v.size := by
  rw [set]
  split <;> rfl

/-- A written entry reads the number, or zero if the number compares as zero;
the other entries stay. -/
theorem entry_set [Scalar α] (v : SparseVec α) (i j : Nat) (x : α) (h : i < v.size) :
    (v.set i x h).entry j =
      if i = j then (if Scalar.nonzero x then x else 0) else v.entry j := by
  by_cases hx : Scalar.nonzero x = true
  · simp [set, entry, hx, findEntry_insertEntry]
  · simp [set, entry, hx, findEntry_eraseEntry]

end SparseVec

end LatentFactors
