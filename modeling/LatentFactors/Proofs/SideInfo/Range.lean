import LatentFactors.Proofs.SideInfo.Decoding

/-!
# Indices out of range

Only the largest index is compared with the size of the vectors.  A negative index is not
refused there.  It counts from the end, so its value is stored at another index than the
one in its row, and it is refused only below minus the size.  So does an index that only a
word without a sign holds, as it is read as a negative one.
-/

namespace LatentFactors

open SideRow

variable {α : Type} [Scalar α] {f : Frame α} {key : KeyColumns} {rows : List (SideRow α)}

namespace Frame.LongFormat

/-- With a given size there are vectors exactly when all indices are below the size, and
those of complete keys not below minus the size and readable. -/
theorem exists_sideVectors_some_iff (hf : f.LongFormat key rows) {width : Width}
    (hcolumn : f.column "feature" = .ok (.ints width (rows.map (·.feature)))) {n : Int} :
    (∃ vectors, f.sideVectors key (some n) = .ok vectors) ↔
      (∀ row ∈ rows, row.feature < n) ∧
        ∀ row ∈ rows, row.key.isComplete = true → -n ≤ row.feature ∧
          (width = .unbounded → Width.signed.fits row.feature = true) := by
  by_cases hbelow : ∀ row ∈ rows, row.feature < n
  · have hn : f.sideSize (some n) = .ok n := hf.sideSize_eq_ok_iff.2 ⟨rfl, hbelow⟩
    rw [hf.exists_vectors_iff hcolumn hn, and_iff_right hbelow]
  · refine iff_of_false ?_ fun h => hbelow h.1
    rintro ⟨vectors, hvectors⟩
    obtain ⟨-, m, hm, -⟩ := hf.lists_of_sideVectors hvectors
    obtain ⟨rfl, hrows⟩ := hf.sideSize_eq_ok_iff.1 hm
    exact hbelow hrows

end Frame.LongFormat

/-- With a given size, the indices of complete keys are accepted from minus the size on, if
they can be read: those of a column without a width only if a word with a sign holds them.  A
negative index counts from the end, and so does one that only a word without a sign holds,
because it is read as a negative one: at a place stands the last value for the index of the
place, or the last one for the negative index that names the same place.  With neither of
these every value stands at its index. -/
theorem negative_indices_count_from_end (hf : f.LongFormat key rows) {width : Width}
    (hcolumn : f.column "feature" = .ok (.ints width (rows.map (·.feature)))) (n : Int) :
    ((∃ vectors, f.sideVectors key (some n) = .ok vectors) ↔
      (∀ row ∈ rows, row.feature < n) ∧
        ∀ row ∈ rows, row.key.isComplete = true → -n ≤ row.feature ∧
          (width = .unbounded → Width.signed.fits row.feature = true)) ∧
    ∀ vectors, f.sideVectors key (some n) = .ok vectors →
      ListsKeys (rows.map (·.key)) (vectors.map (·.1)) ∧
      (∀ e ∈ vectors, e.2.isSparse = true ∧ (e.2.size : Int) = n ∧
        let written := lastValue (rows.map asRead) e.1
        ∀ i : Nat, i < e.2.size →
          (written (i - n) = none → e.2.entry i = Vec.stored (written i)) ∧
          (written i = none → e.2.entry i = Vec.stored (written (i - n))) ∧
          (e.2.entry i = Vec.stored (written i) ∨
            e.2.entry i = Vec.stored (written (i - n)))) ∧
      ((∀ row ∈ rows, row.key.isComplete = true →
        0 ≤ row.feature ∧ row.feature < signedLimit) → Decodes rows n vectors) := by
  refine ⟨hf.exists_sideVectors_some_iff hcolumn, fun vectors hvectors => ?_⟩
  obtain ⟨hlists, m, hm, -⟩ := hf.lists_of_sideVectors hvectors
  obtain rfl : m = n := (hf.sideSize_eq_ok_iff.1 hm).1
  refine ⟨hlists, fun e he => ?_, fun hindices => hf.decodes_of_sideVectors hindices hm hvectors⟩
  obtain ⟨hsparse, hsize, hentry⟩ := hf.entry_of_sideVectors hm hvectors he
  refine ⟨hsparse, hsize, fun i hi => ?_⟩
  obtain ⟨j, rfl | rfl, hj, hnone⟩ := hentry i hi
  · refine ⟨fun _ => hj, fun h => ?_, .inl hj⟩
    rw [hj, h, (hnone h).2]
  · refine ⟨fun h => ?_, fun _ => hj, .inr hj⟩
    rw [hj, h, (hnone h).1]

/-- Two indices for one place, and a negative one alone. -/
theorem negative_indices_count_from_end_rational :
    let f : Frame ℚ := ⟨⟨[("user", .ints .signed [1, 1, 2]), ("feature", .ints .signed [2, -1, -3]),
      ("value", .reals [some 5, some 7, some 2])]⟩⟩
    let rows : List (SideRow ℚ) :=
      [⟨.single (.int 1), 2, 5⟩, ⟨.single (.int 1), -1, 7⟩, ⟨.single (.int 2), -3, 2⟩]
    f.LongFormat (.one "user") rows ∧
      (∃ vectors, f.sideVectors (.one "user") (some 3) = .ok vectors ∧
        ∀ e ∈ vectors, e.1 = .single (.int 2) → e.2.entry 0 = 2) ∧
      ¬∃ vectors, f.sideVectors (.one "user") (some 2) = .ok vectors := by
  intro f rows
  have hf : f.LongFormat (.one "user") rows := {
    rectangular := by unfold Frame.Rectangular; decide
    reads := ⟨_, rfl, rfl⟩
    features := ⟨.signed, rfl, by decide⟩
    values := rfl }
  have hcolumn : f.column "feature" = .ok (.ints .signed (rows.map (·.feature))) := rfl
  refine ⟨hf, ?_, fun h => ?_⟩
  · obtain ⟨vectors, hvectors⟩ := (negative_indices_count_from_end hf hcolumn 3).1.2 (by decide)
    obtain ⟨-, hentries, -⟩ := (negative_indices_count_from_end hf hcolumn 3).2 vectors hvectors
    refine ⟨vectors, hvectors, fun e he hkey => ?_⟩
    obtain ⟨-, hsize, hentry⟩ := hentries e he
    have hzero := (hentry 0 (by omega)).2.1
    rw [hkey] at hzero
    exact (hzero (by decide)).trans (by decide)
  · exact absurd ((negative_indices_count_from_end hf hcolumn 2).1.1 h) (by decide)

/-- A negative index is accepted, and its value is stored at another index. -/
theorem negative_index_is_stored :
    let f : Frame ℚ := ⟨⟨[("user", .ints .signed [1]), ("feature", .ints .signed [-1]),
      ("value", .reals [some 2])]⟩⟩
    f.LongFormat (.one "user") [⟨.single (.int 1), -1, 2⟩] ∧
      ∃ v, f.sideVectors (.one "user") (some 3) = .ok [(.single (.int 1), v)] ∧ v.entry 2 = 2 := by
  intro f
  have hf : f.LongFormat (.one "user") [⟨.single (.int 1), -1, 2⟩] := {
    rectangular := by unfold Frame.Rectangular; decide
    reads := ⟨_, rfl, rfl⟩
    features := ⟨.signed, rfl, by decide⟩
    values := rfl }
  have hsorted : sortedKeys [.single (.int 1)] = [.single (.int 1)] := List.mergeSort_singleton _
  let zero : Vec ℚ := .sparse (.zero 3)
  refine ⟨hf, zero.set 2 2 (by decide), ?_, by decide +kernel⟩
  rw [hf.sideVectors_eq, List.map_singleton, hsorted]
  rfl

end LatentFactors
