import LatentFactors.Proofs.Arithmetic
import LatentFactors.Proofs.Outcome
import LatentFactors.Vec.IndexUnion

/-!
# Reading and writing vectors

The theory looks at a vector through its size and its entries.  This module
says what every operation does to them.

* Reading and writing inside a vector succeeds (`Vec.get_natCast`,
  `Vec.put_natCast`), and a written entry reads what the kind of the vector
  stores (`Vec.entry_set`): a sparse vector turns every zero into the same one.
* The nonzero indices of a vector are the indices inside of it where the entry
  is nonzero (`Vec.mem_support`), and an index is in the union of
  several vectors when one of them has it (`mem_supportUnion`).
* What needs the list of the entries succeeds exactly for the vectors whose
  entries can be listed: `Vec.nonzeroIndices_eq_ok_iff` for one vector,
  `nonzeroUnion_eq_ok_iff` for several, and `Vec.exists_dot_iff` for products
  (`Vec.HasProduct`), which also take vectors of one size.  Vectors of one size
  that have no product are too large (`Vec.dot_of_not_hasProduct`).
-/

namespace LatentFactors

namespace SparseVec

variable {α : Type}

/-- The entry that is stored for an index is the one that is found. -/
theorem findEntry_of_mem [Zero α] {i : Nat} {x : α} {entries : List (Nat × α)}
    (hsorted : entries.Pairwise (fun a b => a.1 < b.1)) (h : (i, x) ∈ entries) :
    findEntry i entries = x := by
  induction entries with
  | nil => simp at h
  | cons e rest ih =>
    obtain ⟨hlt, hrest⟩ := List.pairwise_cons.1 hsorted
    rw [findEntry]
    rcases List.mem_cons.1 h with rfl | h
    · simp
    · have hne : e.1 ≠ i := Nat.ne_of_lt (hlt _ h)
      rw [if_neg hne]
      exact ih hrest h

theorem findEntry_of_not_mem [Zero α] {i : Nat} {entries : List (Nat × α)}
    (h : ∀ e ∈ entries, e.1 ≠ i) : findEntry i entries = 0 := by
  induction entries with
  | nil => rfl
  | cons e rest ih =>
    rw [findEntry, if_neg (h e List.mem_cons_self)]
    exact ih fun e he => h e (List.mem_cons_of_mem _ he)

variable [Scalar α]

/-- A listed index is inside the vector and its entry is nonzero. -/
theorem nonzero_of_mem_support {v : SparseVec α} {i : Nat}
    (h : i ∈ v.support) : i < v.size ∧ Scalar.nonzero (v.entry i) = true := by
  obtain ⟨e, he, rfl⟩ := List.mem_map.1 h
  obtain ⟨hmem, hnonzero⟩ := List.mem_filter.1 he
  have hentry : v.entry e.1 = e.2 := findEntry_of_mem v.sorted hmem
  exact ⟨v.bounded e hmem, by rw [hentry]; exact hnonzero⟩

/-- The index of a nonzero entry is listed. -/
theorem mem_support_of_nonzero [ZeroLaw α] {v : SparseVec α} {i : Nat}
    (h : Scalar.nonzero (v.entry i) = true) : i ∈ v.support := by
  by_cases hstored : ∃ e ∈ v.entries, e.1 = i
  · obtain ⟨e, hmem, rfl⟩ := hstored
    have hentry : v.entry e.1 = e.2 := findEntry_of_mem v.sorted hmem
    rw [hentry] at h
    exact List.mem_map.2 ⟨e, List.mem_filter.2 ⟨hmem, h⟩, rfl⟩
  · have hzero : v.entry i = 0 :=
      findEntry_of_not_mem fun e he heq => hstored ⟨e, he, heq⟩
    rw [hzero, Scalar.nonzero_zero] at h
    cases h

end SparseVec

/-! ## Arrays -/

/-- A word with a sign counts the entries of every array. -/
theorem arrayLimit_lt_signedLimit : arrayLimit < signedLimit := by decide

/-- Only counts below the limit are sizes of arrays. -/
theorem checkArray_eq_ok_iff {α : Type} {size : Int} :
    (checkArray size : Outcome α Unit) = .ok () ↔ 0 ≤ size ∧ size < arrayLimit := by
  rw [checkArray]
  split
  · next hneg => exact iff_of_false nofun fun h => Int.not_lt.2 h.1 hneg
  · next hnonneg =>
    split
    · next hlimit => exact iff_of_false nofun fun h => Int.not_lt.2 hlimit h.2
    · next hlimit => exact iff_of_true rfl ⟨Int.not_lt.1 hnonneg, Int.not_le.1 hlimit⟩

theorem checkArray_natCast {α : Type} {size : Nat} (h : (size : Int) < arrayLimit) :
    (checkArray size : Outcome α Unit) = .ok () :=
  checkArray_eq_ok_iff.2 ⟨Int.natCast_nonneg size, h⟩

theorem checkArray_of_le {α : Type} {size : Nat} (h : arrayLimit ≤ (size : Int)) :
    (checkArray size : Outcome α Unit) = .error .noSize := by
  have hnonneg : ¬ (size : Int) < 0 := by omega
  rw [checkArray, if_neg hnonneg, if_pos h]

namespace Vec

variable {α : Type}

/-! ## Entries -/

@[simp] theorem size_dense (xs : Array α) : (dense xs).size = xs.size := rfl

variable [Scalar α]

@[simp] theorem entry_dense (xs : Array α) (i : Nat) :
    (dense xs).entry i = xs[i]?.getD 0 := rfl

/-- Nothing but zeros is outside of a vector. -/
theorem entry_of_size_le {v : Vec α} {i : Nat} (h : v.size ≤ i) : v.entry i = 0 := by
  cases v with
  | dense xs =>
    rw [entry_dense, Array.getElem?_eq_none h]
    rfl
  | sparse v =>
    refine SparseVec.findEntry_of_not_mem fun e he => ?_
    have hlt := v.bounded e he
    have hle : v.size ≤ i := h
    omega

theorem get_natCast {v : Vec α} {i : Nat} (h : i < v.size) :
    v.get (i : Int) = .ok (v.entry i) := by
  rw [get, place?_natCast h]

omit [Scalar α] in
theorem place?_of_size_le {v : Vec α} {i : Nat} (h : v.size ≤ i) :
    place? v.size (i : Int) = none := by
  have hle : ¬ (i : Int) < v.size := by omega
  simp [place?, hle]

/-- Only indices inside the vector are read. -/
theorem get_eq_ok {v : Vec α} {i : Nat} {x : α} (h : v.get (i : Int) = .ok x) :
    i < v.size ∧ x = v.entry i := by
  by_cases hi : i < v.size
  · rw [get_natCast hi] at h
    injection h with h
    exact ⟨hi, h.symm⟩
  · rw [get, place?_of_size_le (Nat.le_of_not_lt hi)] at h
    cases h

omit [Scalar α] in
theorem sparseZero_natCast (size : Nat) :
    (sparseZero size : Outcome α (Vec α)) = .ok (sparse (.zero size)) := by
  have hnonneg : ¬ (size : Int) < 0 := by omega
  rw [sparseZero, if_neg hnonneg, Int.toNat_natCast]

omit [Scalar α] in
/-- Only sizes that are counts make vectors of zeros. -/
theorem sparseZero_eq_ok {size : Int} {v : Vec α}
    (h : (sparseZero size : Outcome α (Vec α)) = .ok v) :
    0 ≤ size ∧ v = sparse (.zero size.toNat) := by
  rw [sparseZero] at h
  split at h
  · cases h
  · next hnonneg =>
    cases h
    exact ⟨Int.not_lt.1 hnonneg, rfl⟩

/-- What a vector keeps of a number that is written to it. -/
def kept (v : Vec α) (x : α) : α :=
  match v with
  | dense _ => x
  | sparse _ => if Scalar.nonzero x then x else 0

/-- A written entry reads what is kept of the number, and the others stay. -/
theorem entry_set (v : Vec α) (i j : Nat) (x : α) (h : i < v.size) :
    (v.set i x h).entry j = if i = j then v.kept x else v.entry j := by
  cases v with
  | dense xs =>
    have hi : i < xs.size := h
    show (xs.set i x hi)[j]?.getD 0 = _
    rw [Array.getElem?_set]
    by_cases hij : i = j
    · simp [hij, kept]
    · simp [hij]
  | sparse v => exact SparseVec.entry_set v i j x h

@[simp] theorem isSparse_set (v : Vec α) (i : Nat) (x : α) (h : i < v.size) :
    (v.set i x h).isSparse = v.isSparse := by
  cases v <;> rfl

theorem put_natCast {v : Vec α} {i : Nat} (x : α) (h : i < v.size) :
    v.put (i : Int) x = .ok (v.set i x h) := by
  rw [put]
  split
  · next p hp =>
    rw [place?_natCast h] at hp
    cases hp
    rfl
  · next hp =>
    rw [place?_natCast h] at hp
    cases hp

/-- Only indices inside the vector are written. -/
theorem put_eq_ok {v w : Vec α} {i : Nat} {x : α} (h : v.put (i : Int) x = .ok w) :
    ∃ hi : i < v.size, w = v.set i x hi := by
  by_cases hi : i < v.size
  · rw [put_natCast x hi] at h
    injection h with h
    exact ⟨hi, h.symm⟩
  · rw [put] at h
    split at h
    · next p hp =>
      rw [place?_of_size_le (Nat.le_of_not_lt hi)] at hp
      cases hp
    · cases h

theorem kept_congr {v w : Vec α} (h : w.isSparse = v.isSparse) (x : α) :
    w.kept x = v.kept x := by
  cases v <;> cases w <;> simp_all [kept, isSparse]

/-! ## Nonzero indices -/

/-- A listed index is inside the vector and its entry is nonzero. -/
theorem nonzero_of_mem_support {v : Vec α} {i : Nat} (h : i ∈ v.support) :
    i < v.size ∧ Scalar.nonzero (v.entry i) = true := by
  cases v with
  | dense xs =>
    obtain ⟨⟨x, j⟩, he, rfl⟩ := List.mem_map.1 h
    obtain ⟨hmem, hnonzero⟩ := List.mem_filter.1 he
    have hx : xs[j]? = some x := by
      rw [← Array.getElem?_toList]
      exact List.mem_zipIdx_iff_getElem?.1 hmem
    obtain ⟨hj, -⟩ := Array.getElem?_eq_some_iff.1 hx
    refine ⟨hj, ?_⟩
    rw [entry_dense, hx]
    exact hnonzero
  | sparse v => exact SparseVec.nonzero_of_mem_support h

/-- The indices listed are those inside the vector with a nonzero entry. -/
theorem mem_support [ZeroLaw α] {v : Vec α} {i : Nat} :
    i ∈ v.support ↔ i < v.size ∧ Scalar.nonzero (v.entry i) = true := by
  refine ⟨nonzero_of_mem_support, fun ⟨hi, h⟩ => ?_⟩
  cases v with
  | dense xs =>
    have hx : xs[i]? = some xs[i] := Array.getElem?_eq_getElem hi
    rw [entry_dense, hx] at h
    refine List.mem_map.2 ⟨(xs[i], i), List.mem_filter.2 ⟨?_, h⟩, rfl⟩
    rw [List.mem_zipIdx_iff_getElem?, Array.getElem?_toList]
    exact hx
  | sparse v => exact SparseVec.mem_support_of_nonzero h

theorem not_mem_support [ZeroLaw α] {v : Vec α} {i : Nat} (h : v.entry i = 0) :
    i ∉ v.support := by
  intro hmem
  have hnonzero := (nonzero_of_mem_support hmem).2
  rw [h, Scalar.nonzero_zero] at hnonzero
  cases hnonzero

/-! ## Listing -/

omit [Scalar α] in
/-- The entries of dense vectors can always be listed. -/
theorem isListable_of_dense {v : Vec α} (h : v.isSparse = false) : v.IsListable := fun hsparse => by
  rw [h] at hsparse
  cases hsparse

omit [Scalar α] in
theorem isListable_of_lt {v : Vec α} (h : (v.size : Int) < signedLimit) : v.IsListable := fun _ => h

omit [Scalar α] in
/-- Whether the entries can be listed depends on the kind and the size. -/
theorem isListable_congr {v w : Vec α} (hsparse : w.isSparse = v.isSparse)
    (hsize : w.size = v.size) : w.IsListable ↔ v.IsListable := by
  rw [IsListable, IsListable, hsparse, hsize]

omit [Scalar α] in
theorem checkListable_of_isListable {v : Vec α} (h : v.IsListable) : v.checkListable = .ok () :=
  if_pos h

omit [Scalar α] in
theorem checkListable_eq_ok_iff {v : Vec α} : v.checkListable = .ok () ↔ v.IsListable := by
  refine ⟨fun h => ?_, checkListable_of_isListable⟩
  rw [checkListable] at h
  split at h
  · assumption
  · cases h

/-- The indices that are listed are those of the support. -/
theorem nonzeroIndices_eq_ok_iff {v : Vec α} {is : List Nat} :
    v.nonzeroIndices = .ok is ↔ v.IsListable ∧ is = v.support := by
  rw [nonzeroIndices, Outcome.bind_eq_ok]
  constructor
  · rintro ⟨⟨⟩, hlistable, h⟩
    cases h
    exact ⟨checkListable_eq_ok_iff.1 hlistable, rfl⟩
  · rintro ⟨hlistable, rfl⟩
    exact ⟨(), checkListable_of_isListable hlistable, rfl⟩

/-! ## Products -/

/-- A walk needs the list of the vector that it goes along. -/
theorem walk_of_isListable {v : Vec α} (h : v.IsListable) (w : Vec α) :
    v.walk w = .ok (Scalar.total (v.support.map fun i => v.entry i * w.entry i)) := by
  rw [walk, nonzeroIndices_eq_ok_iff.2 ⟨h, rfl⟩]
  rfl

theorem walk_of_not_isListable {v : Vec α} (h : ¬v.IsListable) (w : Vec α) :
    v.walk w = .error .tooLarge := by
  rw [walk, nonzeroIndices, checkListable, if_neg h]
  rfl

omit [Scalar α] in
/-- Two vectors of one size whose entries can be listed. -/
structure HasProduct (v w : Vec α) : Prop where
  size : v.size = w.size
  left : v.IsListable
  right : w.IsListable

omit [Scalar α] in
theorem HasProduct.symm {v w : Vec α} (h : v.HasProduct w) : w.HasProduct v :=
  ⟨h.size.symm, h.right, h.left⟩

/-- Vectors of one size that have no product are too large. -/
theorem dot_of_not_hasProduct {v w : Vec α} (hsize : v.size = w.size) (h : ¬v.HasProduct w) :
    v.dot w = .error .tooLarge := by
  rw [dot.eq_def, if_neg (not_not.2 hsize)]
  cases v with
  | dense xs =>
    have hw : ¬w.IsListable := fun hw => h ⟨hsize, isListable_of_dense rfl, hw⟩
    cases w with
    | dense ys => exact absurd (isListable_of_dense rfl) hw
    | sparse w => exact walk_of_not_isListable hw _
  | sparse v =>
    refine walk_of_not_isListable (fun hv => h ⟨hsize, hv, fun _ => ?_⟩) w
    rw [← hsize]
    exact hv rfl

theorem HasProduct.exists_dot {v w : Vec α} (h : v.HasProduct w) : ∃ x, v.dot w = .ok x := by
  rw [dot.eq_def, if_neg (not_not.2 h.size)]
  cases v with
  | dense xs =>
    cases w with
    | dense ys => exact ⟨_, rfl⟩
    | sparse w => exact ⟨_, walk_of_isListable h.right _⟩
  | sparse v => exact ⟨_, walk_of_isListable h.left w⟩

/-- Two vectors have a product exactly when they have one size and their entries can be
listed. -/
theorem exists_dot_iff {v w : Vec α} : (∃ x, v.dot w = .ok x) ↔ v.HasProduct w := by
  refine ⟨fun ⟨x, hx⟩ => ?_, HasProduct.exists_dot⟩
  by_contra hproduct
  by_cases hsize : v.size = w.size
  · rw [dot_of_not_hasProduct hsize hproduct] at hx
    cases hx
  · rw [dot.eq_def, if_pos hsize] at hx
    cases hx

theorem fault_of_dot {v w : Vec α} (hsize : v.size = w.size) {e : Fault α}
    (h : v.dot w = .error e) : e = .tooLarge := by
  by_cases hproduct : v.HasProduct w
  · obtain ⟨x, hx⟩ := hproduct.exists_dot
    rw [hx] at h
    cases h
  · rw [dot_of_not_hasProduct hsize hproduct] at h
    injection h with h
    exact h.symm

/-! ## Exact vectors -/

section Exact

variable {K : Type} [ExactScalar K]

/-- In exact arithmetic every vector keeps a number as it is. -/
theorem kept_eq (v : Vec K) (x : K) : v.kept x = x := by
  cases v with
  | dense xs => rfl
  | sparse v =>
    show (if Scalar.nonzero x then x else 0) = x
    split
    · rfl
    · next h =>
      rw [Scalar.nonzero_iff, not_not] at h
      exact h.symm

theorem mem_support_iff {v : Vec K} {i : Nat} : i ∈ v.support ↔ v.entry i ≠ 0 := by
  rw [mem_support, Scalar.nonzero_iff]
  refine ⟨fun h => h.2, fun h => ⟨?_, h⟩⟩
  by_contra hle
  exact h (entry_of_size_le (Nat.le_of_not_lt hle))

end Exact

end Vec

/-- An index is in the union exactly when one of the vectors lists it. -/
theorem mem_supportUnion {α : Type} [Scalar α] {i : Nat} {vs : Family α} :
    i ∈ supportUnion vs ↔ ∃ v ∈ vs, i ∈ v.support := by
  induction vs with
  | nil => simp [supportUnion]
  | cons v vs ih =>
    have hcons : supportUnion (v :: vs) = mergeIndices v.support (supportUnion vs) := rfl
    rw [hcons, mem_mergeIndices, ih]
    simp

/-- Several vectors are listed exactly if each of them can be. -/
theorem nonzeroUnion_eq_ok_iff {α : Type} [Scalar α] {vs : Family α} {is : List Nat} :
    nonzeroUnion vs = .ok is ↔ (∀ v ∈ vs, v.IsListable) ∧ is = supportUnion vs := by
  have hall : vs.forM (Vec.checkListable (α := α)) = .ok () ↔ ∀ v ∈ vs, v.IsListable := by
    induction vs with
    | nil => exact iff_of_true rfl nofun
    | cons v vs ih =>
      rw [List.forM_eq_forM, List.forM_cons, Outcome.bind_eq_ok, List.forall_mem_cons, ← ih,
        ← Vec.checkListable_eq_ok_iff]
      exact ⟨fun ⟨_, hv, hvs⟩ => ⟨hv, hvs⟩, fun ⟨hv, hvs⟩ => ⟨(), hv, hvs⟩⟩
  rw [nonzeroUnion, Outcome.bind_eq_ok, ← hall]
  constructor
  · rintro ⟨⟨⟩, hlistable, h⟩
    cases h
    exact ⟨hlistable, rfl⟩
  · rintro ⟨hlistable, rfl⟩
    exact ⟨(), hlistable, rfl⟩

end LatentFactors
