import Mathlib.Algebra.BigOperators.Intervals
import Mathlib.Data.List.Sort
import LatentFactors.Proofs.Vec.Entries

/-!
# Products

In exact arithmetic the product of two vectors is the sum of the products of their
entries, in whatever order these are added and however many zeros are stepped over
(`Vec.dot_eq_sum`).  So it depends on the entries only, and not on the kinds of the
vectors.

Vectors with the same entries are `Vec.Interchangeable`.  They list the same nonzero
indices in the same order (`Vec.Interchangeable.support_eq`), so a walk over one of
them is a walk over the other.
-/

namespace LatentFactors.Vec

section Indices

variable {α : Type} [Scalar α]

/-- Nonzero indices are listed in ascending order. -/
theorem sorted_support (v : Vec α) : v.support.Pairwise (· < ·) := by
  cases v with
  | dense xs =>
    have hplaces : (xs.toList.zipIdx.map Prod.snd).Pairwise (· < ·) := by
      rw [List.zipIdx_map_snd]
      exact List.pairwise_lt_range'
    exact List.pairwise_map.2 ((List.pairwise_map.1 hplaces).filter _)
  | sparse v => exact List.pairwise_map.2 (v.sorted.filter _)

theorem sorted_mergeIndices {is js : List Nat} (hi : is.Pairwise (· < ·))
    (hj : js.Pairwise (· < ·)) : (mergeIndices is js).Pairwise (· < ·) := by
  -- What comes first is below both lists, and so below what is joined from their rests.
  have hbelow {k : Nat} {is js : List Nat} (hi : ∀ i ∈ is, k < i) (hj : ∀ j ∈ js, k < j) :
      ∀ i ∈ mergeIndices is js, k < i :=
    fun i h => ((mem_mergeIndices is js).1 h).elim (hi i) (hj i)
  fun_induction mergeIndices is js with
  | case1 js => exact hj
  | case2 is _ => exact hi
  | case3 i is j js hlt ih =>
    obtain ⟨hfirst, hrest⟩ := List.pairwise_cons.1 hi
    obtain ⟨hfirst', -⟩ := List.pairwise_cons.1 hj
    refine List.pairwise_cons.2 ⟨hbelow hfirst fun k hk => ?_, ih hrest hj⟩
    rcases List.mem_cons.1 hk with rfl | hk
    · exact hlt
    · exact hlt.trans (hfirst' k hk)
  | case4 i is j js hge hlt ih =>
    obtain ⟨hfirst, -⟩ := List.pairwise_cons.1 hi
    obtain ⟨hfirst', hrest'⟩ := List.pairwise_cons.1 hj
    refine List.pairwise_cons.2 ⟨hbelow (fun k hk => ?_) hfirst', ih hi hrest'⟩
    rcases List.mem_cons.1 hk with rfl | hk
    · exact hlt
    · exact hlt.trans (hfirst k hk)
  | case5 i is j js hge hle ih =>
    obtain ⟨hfirst, hrest⟩ := List.pairwise_cons.1 hi
    obtain ⟨hfirst', hrest'⟩ := List.pairwise_cons.1 hj
    have heq : i = j := by omega
    exact List.pairwise_cons.2 ⟨hbelow hfirst (heq ▸ hfirst'), ih hrest hrest'⟩

theorem sorted_supportUnion (vs : Family α) : (supportUnion vs).Pairwise (· < ·) := by
  induction vs with
  | nil => exact .nil
  | cons v vs ih => exact sorted_mergeIndices v.sorted_support ih

/-- In which order vectors are looked through does not matter. -/
theorem supportUnion_perm {vs ws : Family α} (h : vs.Perm ws) :
    supportUnion vs = supportUnion ws := by
  refine (sorted_supportUnion vs).eq_of_mem_iff (sorted_supportUnion ws) fun i => ?_
  simp only [mem_supportUnion, h.mem_iff]

/-- Two vectors with the same size and the same entries.  They may be of different kinds if
there are arrays of their size. -/
structure Interchangeable (v w : Vec α) : Prop where
  size : w.size = v.size
  entry (i : Nat) (h : i < v.size) : w.entry i = v.entry i
  kind : w.isSparse = v.isSparse ∨ (v.size : Int) < arrayLimit

namespace Interchangeable

variable {v w : Vec α}

theorem refl (v : Vec α) : Interchangeable v v := ⟨rfl, fun _ _ => rfl, .inl rfl⟩

theorem isListable_iff (h : Interchangeable v w) : w.IsListable ↔ v.IsListable := by
  rcases h.kind with hkind | hroom
  · exact isListable_congr hkind h.size
  · have hlimit : (v.size : Int) < signedLimit := Int.lt_trans hroom (by decide)
    exact iff_of_true (isListable_of_lt (h.size.symm ▸ hlimit)) (isListable_of_lt hlimit)

theorem checkListable_eq (h : Interchangeable v w) : w.checkListable = v.checkListable := by
  rw [checkListable, checkListable]
  simp only [h.isListable_iff]

theorem support_eq [ZeroLaw α] (h : Interchangeable v w) :
    w.support = v.support := by
  refine w.sorted_support.eq_of_mem_iff v.sorted_support fun i => ?_
  rw [mem_support, mem_support, h.size]
  exact and_congr_right fun hi => by rw [h.entry i hi]

theorem get_eq (h : Interchangeable v w) {i : Nat} (hi : i < v.size) :
    w.get (i : Int) = v.get (i : Int) := by
  rw [get_natCast hi, get_natCast (h.size ▸ hi), h.entry i hi]

end Interchangeable

end Indices

variable {K : Type} [ExactScalar K]

private theorem total_products_aux {xs ys : List K} {n : Nat} (hx : xs.length = n)
    (hy : ys.length = n) :
    Scalar.total (List.zipWith (· * ·) xs ys) =
      ∑ j ∈ Finset.range n, xs[j]?.getD 0 * ys[j]?.getD 0 := by
  rw [Scalar.total_eq_sum]
  induction n generalizing xs ys with
  | zero =>
    rw [List.length_eq_zero_iff] at hx
    subst hx
    simp
  | succ n ih =>
    cases xs with
    | nil => cases hx
    | cons x xs =>
      cases ys with
      | nil => cases hy
      | cons y ys =>
        have hsum := ih (Nat.succ.inj hx) (Nat.succ.inj hy)
        rw [List.zipWith_cons_cons, List.sum_cons, hsum, Finset.sum_range_succ', add_comm]
        simp

/-- A walk steps over zeros only, which would add nothing. -/
theorem walk_eq_sum {v : Vec K} (h : v.IsListable) (w : Vec K) :
    v.walk w = .ok (∑ j ∈ Finset.range v.size, v.entry j * w.entry j) := by
  have hnodup : v.support.Nodup := v.sorted_support.imp Nat.ne_of_lt
  rw [walk_of_isListable h, Scalar.total_eq_sum, ← List.sum_toFinset _ hnodup]
  refine congrArg Except.ok (Finset.sum_subset (fun i hi => ?_) fun i _ hzero => ?_)
  · exact Finset.mem_range.2 (nonzero_of_mem_support (List.mem_toFinset.1 hi)).1
  · rw [List.mem_toFinset, mem_support_iff, not_not] at hzero
    rw [hzero, zero_mul]

/-- In exact arithmetic the product of two vectors of one size is the sum of the
products of their entries. -/
theorem dot_eq_sum {v w : Vec K} {n : Nat} (h : v.HasProduct w) (hw : w.size = n) :
    v.dot w = .ok (∑ j ∈ Finset.range n, v.entry j * w.entry j) := by
  have hv : v.size = n := h.size.trans hw
  rw [dot.eq_def, if_neg (not_not.2 h.size)]
  cases v with
  | dense xs =>
    cases w with
    | dense ys =>
      rw [size_dense] at hv hw
      dsimp only
      rw [total_products_aux (n := n) (by simpa using hv) (by simpa using hw)]
      simp
    | sparse w =>
      dsimp only
      rw [walk_eq_sum h.right, hw]
      simp only [mul_comm]
  | sparse v =>
    dsimp only
    rw [walk_eq_sum h.left, hv]

namespace Interchangeable

variable {v w v' w' : Vec K}

theorem hasProduct_iff (h : Interchangeable v w) (h' : Interchangeable v' w') :
    w.HasProduct w' ↔ v.HasProduct v' := by
  constructor
  · rintro ⟨hsize, hleft, hright⟩
    exact ⟨by rw [← h.size, ← h'.size, hsize], h.isListable_iff.1 hleft, h'.isListable_iff.1 hright⟩
  · rintro ⟨hsize, hleft, hright⟩
    exact ⟨by rw [h.size, h'.size, hsize], h.isListable_iff.2 hleft, h'.isListable_iff.2 hright⟩

/-- A product depends on the entries of the two vectors only. -/
theorem dot_congr (h : Interchangeable v w) (h' : Interchangeable v' w') :
    w.dot w' = v.dot v' := by
  by_cases hsize : v.size = v'.size
  · by_cases hproduct : v.HasProduct v'
    · rw [dot_eq_sum hproduct rfl, dot_eq_sum ((h.hasProduct_iff h').2 hproduct) h'.size]
      refine congrArg Except.ok (Finset.sum_congr rfl fun j hj => ?_)
      have hj' : j < v'.size := Finset.mem_range.1 hj
      rw [h.entry j (hsize ▸ hj'), h'.entry j hj']
    · have hsize' : w.size = w'.size := h.size.trans (hsize.trans h'.size.symm)
      rw [dot_of_not_hasProduct hsize hproduct,
        dot_of_not_hasProduct hsize' (mt (h.hasProduct_iff h').1 hproduct)]
  · rw [dot.eq_def, dot.eq_def, h.size, h'.size, if_pos hsize, if_pos hsize]

theorem dot_eq (h : Interchangeable v w) (u : Vec K) : u.dot w = u.dot v :=
  (refl u).dot_congr h

end Interchangeable

end LatentFactors.Vec
