import LatentFactors.Proofs.Arithmetic.Rational
import LatentFactors.Proofs.Frame
import LatentFactors.Proofs.Numeral
import LatentFactors.Ratings

/-!
# What a split makes of the ratings

The part of a rating depends on where its draw stands between two thresholds,
the fraction for testing and the sum of both fractions
(`SplitFractions.partOf_eq_test` and its siblings).  Fractions that are admitted
have these thresholds in order, between zero and one.

The rows of a part are then the places of the draws on one side of a threshold.
Every row is in one part (`rowsIn_perm`), and moving a threshold only takes rows
out of one part and into another one.
-/

namespace LatentFactors

/-! ## Rows by parts -/

theorem rowsIn_eq_places (part : Part) (parts : List Part) :
    rowsIn part parts = places (· = part) parts := rfl

theorem mem_rowsIn {part : Part} {parts : List Part} {row : Nat} :
    row ∈ rowsIn part parts ↔ parts[row]? = some part := by
  rw [rowsIn_eq_places, mem_places]
  simp

theorem pairwise_rowsIn (part : Part) (parts : List Part) :
    (rowsIn part parts).Pairwise (· < ·) :=
  pairwise_places (· = part) parts

theorem rowsIn_eq_nil {part : Part} {parts : List Part} (h : part ∉ parts) :
    rowsIn part parts = [] :=
  List.eq_nil_iff_forall_not_mem.2 fun _ hrow => h (List.mem_of_getElem? (mem_rowsIn.1 hrow))

theorem disjoint_rowsIn {part part' : Part} (h : part ≠ part') (parts : List Part) :
    (rowsIn part parts).Disjoint (rowsIn part' parts) := by
  intro row hrow hrow'
  rw [mem_rowsIn] at hrow hrow'
  exact h (Option.some.inj (hrow.symm.trans hrow'))

/-- Every row is in one part, and no row is in two of them. -/
theorem rowsIn_perm (parts : List Part) :
    (rowsIn .train parts ++ rowsIn .validation parts ++ rowsIn .test parts).Perm
      (List.range parts.length) := by
  have hnodup (part : Part) : (rowsIn part parts).Nodup :=
    (pairwise_rowsIn part parts).imp Nat.ne_of_lt
  have htrain : (rowsIn .train parts).Disjoint (rowsIn .validation parts) :=
    disjoint_rowsIn (by decide) parts
  have htest : (rowsIn .train parts ++ rowsIn .validation parts).Disjoint (rowsIn .test parts) :=
    List.disjoint_append_left.2
      ⟨disjoint_rowsIn (by decide) parts, disjoint_rowsIn (by decide) parts⟩
  have hall := ((hnodup .train).append (hnodup .validation) htrain).append (hnodup .test) htest
  refine (List.perm_ext_iff_of_nodup hall List.nodup_range).2 fun row => ?_
  rw [List.mem_append, List.mem_append, mem_rowsIn, mem_rowsIn, mem_rowsIn, List.mem_range]
  constructor
  · rintro ((h | h) | h) <;> exact (List.getElem?_eq_some_iff.1 h).1
  · intro hrow
    rw [List.getElem?_eq_getElem hrow]
    cases parts[row] with
    | train => exact .inl (.inl rfl)
    | validation => exact .inl (.inr rfl)
    | test => exact .inr rfl

theorem rowsIn_map {β : Type} (part : Part) (f : β → Part) (xs : List β) :
    rowsIn part (xs.map f) = places (fun x => f x = part) xs := by
  rw [rowsIn_eq_places, places_map]
  rfl

/-! ## Thresholds -/

namespace SplitFractions

variable {K : Type} [ExactScalar K]

/-- The fractions for testing and validation, both at most one together. -/
structure Admitted (f : SplitFractions K) : Prop where
  test_nonneg : 0 ≤ f.test.value
  validation_nonneg : 0 ≤ f.validation.value
  held_le_one : f.test.value + f.validation.value ≤ 1

theorem exists_held (f : SplitFractions K) :
    ∃ held, f.held = .ok held ∧ held.value = f.test.value + f.validation.value := by
  obtain ⟨test, validation⟩ := f
  cases test with
  | real x =>
    refine ⟨.real (x + validation.value), ?_, rfl⟩
    simp only [held, Outcome.real_eq]
    rfl
  | integer m =>
    cases validation with
    | real y =>
      refine ⟨.real ((Numeral.integer m).value + y), ?_, rfl⟩
      simp only [held, Outcome.real_eq]
      rfl
    | integer n =>
      refine ⟨.integer (m + n), rfl, ?_⟩
      show Scalar.ofInt (m + n) = (Scalar.ofInt m + Scalar.ofInt n : K)
      rw [ExactScalar.ofInt_eq, ExactScalar.ofInt_eq, ExactScalar.ofInt_eq, Int.cast_add]

theorem check_of_admitted {f : SplitFractions K} (hf : f.Admitted) :
    f.check = .ok (f.test.value + f.validation.value) := by
  obtain ⟨held, hheld, hvalue⟩ := f.exists_held
  have hbelow : ¬(f.test.isBelow 0 || f.validation.isBelow 0) = true := by
    rw [Bool.or_eq_true, Numeral.isBelow_iff, Numeral.isBelow_iff, Int.cast_zero, not_or]
    exact ⟨not_lt.2 hf.test_nonneg, not_lt.2 hf.validation_nonneg⟩
  have habove : ¬held.isAbove 1 = true := by
    rw [Numeral.isAbove_iff, Int.cast_one, hvalue]
    exact not_lt.2 hf.held_le_one
  rw [check, if_neg hbelow, hheld]
  simp only [Outcome.bind_ok, if_neg habove, hvalue]
  rfl

theorem check_of_not_admitted {f : SplitFractions K} (hf : ¬f.Admitted) :
    f.check = .error (.splitFractions f.test f.validation) := by
  obtain ⟨held, hheld, hvalue⟩ := f.exists_held
  by_cases hbelow : (f.test.isBelow 0 || f.validation.isBelow 0) = true
  · rw [check, if_pos hbelow]
    rfl
  · have habove : held.isAbove 1 = true := by
      rw [Bool.or_eq_true, Numeral.isBelow_iff, Numeral.isBelow_iff, Int.cast_zero, not_or,
        not_lt, not_lt] at hbelow
      rw [Numeral.isAbove_iff, Int.cast_one, hvalue]
      exact not_le.1 fun hle => hf ⟨hbelow.1, hbelow.2, hle⟩
    rw [check, if_neg hbelow, hheld]
    simp only [Outcome.bind_ok, if_pos habove]
    rfl

theorem partOf_eq_test (f : SplitFractions K) (held u : K) :
    f.partOf held u = .test ↔ u < f.test.value := by
  rw [partOf, ← ExactScalar.less_iff]
  split
  · simp [*]
  · split <;> simp [*]

theorem partOf_eq_train (f : SplitFractions K) (held u : K) :
    f.partOf held u = .train ↔ f.test.value ≤ u ∧ held ≤ u := by
  rw [partOf, ← not_lt, ← not_lt, ← ExactScalar.less_iff, ← ExactScalar.less_iff]
  split
  · simp [*]
  · split <;> simp [*]

theorem partOf_eq_validation (f : SplitFractions K) (held u : K) :
    f.partOf held u = .validation ↔ f.test.value ≤ u ∧ u < held := by
  rw [partOf, ← not_lt, ← ExactScalar.less_iff, ← ExactScalar.less_iff]
  split
  · simp [*]
  · split <;> simp [*]

theorem assign_of_admitted {f : SplitFractions K} (hf : f.Admitted) (n : Nat) (draws : Draws K) :
    f.assign n draws =
      .ok ((draws.take n).1.map (f.partOf (f.test.value + f.validation.value))) := by
  rw [assign, check_of_admitted hf]
  rfl

/-- A split is refused exactly when its fractions are not admitted. -/
theorem assign_eq_ok_iff {f : SplitFractions K} {n : Nat} {draws : Draws K} {parts : List Part} :
    f.assign n draws = .ok parts ↔ f.Admitted ∧
      parts = (draws.take n).1.map (f.partOf (f.test.value + f.validation.value)) := by
  by_cases hf : f.Admitted
  · rw [assign_of_admitted hf, Except.ok.injEq, and_iff_right hf, eq_comm]
  · rw [assign, check_of_not_admitted hf]
    exact ⟨nofun, fun h => absurd h.1 hf⟩

/-- What a split makes of a frame: three parts that share out its rows, without any row in
a part that has no share of the unit interval. -/
structure SharesOut (f : SplitFractions K) (ratings : Frame K) (parts : List Part) : Prop where
  perm : (rowsIn .train parts ++ rowsIn .validation parts ++ rowsIn .test parts).Perm
    (List.range ratings.size)
  ordered (part : Part) : (rowsIn part parts).Pairwise (· < ·)
  size (part : Part) : (ratings.pick (rowsIn part parts)).size = (rowsIn part parts).length
  report :
    let count (part : Part) := (ratings.pick (rowsIn part parts)).size
    splitReport parts = s!"split {ratings.size} ratings into {count .train} train, " ++
      s!"{count .validation} validation, {count .test} test"
  test_empty (h : f.test.value = 0) : rowsIn .test parts = []
  validation_empty (h : f.validation.value = 0) : rowsIn .validation parts = []
  train_empty (h : f.test.value + f.validation.value = 1) : rowsIn .train parts = []

/-- A split of admitted fractions shares out the rows of the ratings. -/
theorem sharesOut_assign {f : SplitFractions K} {ratings : Frame K} {draws : Draws K}
    {parts : List Part} (hdraws : ∀ u ∈ (draws.take ratings.size).1, 0 ≤ u ∧ u < 1)
    (h : f.assign ratings.size draws = .ok parts) : f.SharesOut ratings parts := by
  obtain ⟨-, rfl⟩ := assign_eq_ok_iff.1 h
  set us := (draws.take ratings.size).1 with hus
  set parts := us.map (f.partOf (f.test.value + f.validation.value))
  have hlength : parts.length = ratings.size := by simp [parts, hus, Draws.take]
  have hsize (part : Part) :
      (ratings.pick (rowsIn part parts)).size = (rowsIn part parts).length :=
    Frame.size_pick fun row hrow => by
      rw [← hlength]
      exact (List.getElem?_eq_some_iff.1 (mem_rowsIn.1 hrow)).1
  have hnone {part : Part}
      (h : ∀ u ∈ us, f.partOf (f.test.value + f.validation.value) u ≠ part) :
      rowsIn part parts = [] :=
    rowsIn_eq_nil fun hmem => by
      obtain ⟨u, hu, heq⟩ := List.mem_map.1 hmem
      exact h u hu heq
  refine ⟨?_, fun part => pairwise_rowsIn part parts, hsize, ?_, ?_, ?_, ?_⟩
  · rw [← hlength]
    exact rowsIn_perm parts
  · simp only [hsize]
    rw [splitReport, hlength]
  · intro hzero
    refine hnone fun u hu heq => ?_
    rw [partOf_eq_test, hzero] at heq
    exact not_lt.2 (hdraws u hu).1 heq
  · intro hzero
    refine hnone fun u hu heq => ?_
    rw [partOf_eq_validation, hzero, add_zero] at heq
    exact not_lt.2 heq.1 heq.2
  · intro hone
    refine hnone fun u hu heq => ?_
    rw [partOf_eq_train, hone] at heq
    exact not_lt.2 heq.2 (hdraws u hu).2

/-- A larger fraction for testing only adds test ratings. -/
theorem sublist_rowsIn_test {f g : SplitFractions K} {n : Nat} {draws : Draws K}
    {parts parts' : List Part} (hf : f.assign n draws = .ok parts)
    (hg : g.assign n draws = .ok parts') (h : f.test.value ≤ g.test.value) :
    (rowsIn .test parts).Sublist (rowsIn .test parts') := by
  obtain ⟨-, rfl⟩ := assign_eq_ok_iff.1 hf
  obtain ⟨-, rfl⟩ := assign_eq_ok_iff.1 hg
  rw [rowsIn_map, rowsIn_map]
  refine sublist_places (fun u hu => ?_) _
  rw [decide_eq_true_eq, partOf_eq_test] at hu ⊢
  exact hu.trans_le h

/-- A larger sum of the fractions only takes out ratings for training. -/
theorem sublist_rowsIn_train {f g : SplitFractions K} {n : Nat} {draws : Draws K}
    {parts parts' : List Part} (hf : f.assign n draws = .ok parts)
    (hg : g.assign n draws = .ok parts')
    (h : f.test.value + f.validation.value ≤ g.test.value + g.validation.value) :
    (rowsIn .train parts').Sublist (rowsIn .train parts) := by
  obtain ⟨hadmitted, rfl⟩ := assign_eq_ok_iff.1 hf
  obtain ⟨-, rfl⟩ := assign_eq_ok_iff.1 hg
  rw [rowsIn_map, rowsIn_map]
  refine sublist_places (fun u hu => ?_) _
  rw [decide_eq_true_eq, partOf_eq_train] at hu ⊢
  have hheld : f.test.value + f.validation.value ≤ u := h.trans hu.2
  exact ⟨(le_add_of_nonneg_right hadmitted.validation_nonneg).trans hheld, hheld⟩

end SplitFractions

/-- A split is refused exactly when a fraction is negative or both exceed one.  Otherwise
it shares out the ratings.  With the same draws, the test ratings do not depend on the
fraction for validation, and moving a threshold moves ratings in one direction only. -/
theorem split_is_nested_partition {K : Type} [ExactScalar K] (ratings : Frame K) (draws : Draws K)
    (hdraws : ∀ u ∈ (draws.take ratings.size).1, 0 ≤ u ∧ u < 1) :
    (∀ f : SplitFractions K,
      ((f.test.value < 0 ∨ f.validation.value < 0 ∨ 1 < f.test.value + f.validation.value) →
        f.assign ratings.size draws = .error (.splitFractions f.test f.validation)) ∧
      (¬(f.test.value < 0 ∨ f.validation.value < 0 ∨ 1 < f.test.value + f.validation.value) →
        ∃ parts, f.assign ratings.size draws = .ok parts ∧ f.SharesOut ratings parts)) ∧
    ∀ (f g : SplitFractions K) (parts parts' : List Part),
      f.assign ratings.size draws = .ok parts → g.assign ratings.size draws = .ok parts' →
      (f.test.value = g.test.value → rowsIn .test parts = rowsIn .test parts') ∧
      (f.test.value ≤ g.test.value → (rowsIn .test parts).Sublist (rowsIn .test parts')) ∧
      (f.test.value + f.validation.value ≤ g.test.value + g.validation.value →
        (rowsIn .train parts').Sublist (rowsIn .train parts)) := by
  refine ⟨fun f => ⟨fun hf => ?_, fun hf => ?_⟩,
    fun f g parts parts' hf hg => ⟨fun h => ?_, ?_, ?_⟩⟩
  · have hrefused : ¬f.Admitted := fun hadmitted =>
      hf.elim (not_lt.2 hadmitted.test_nonneg) fun hf =>
        hf.elim (not_lt.2 hadmitted.validation_nonneg) (not_lt.2 hadmitted.held_le_one)
    rw [SplitFractions.assign, SplitFractions.check_of_not_admitted hrefused]
    rfl
  · rw [not_or, not_or, not_lt, not_lt, not_lt] at hf
    have hassign := SplitFractions.assign_of_admitted ⟨hf.1, hf.2.1, hf.2.2⟩ ratings.size draws
    exact ⟨_, hassign, SplitFractions.sharesOut_assign hdraws hassign⟩
  · exact (SplitFractions.sublist_rowsIn_test hf hg h.le).antisymm
      (SplitFractions.sublist_rowsIn_test hg hf h.ge)
  · exact SplitFractions.sublist_rowsIn_test hf hg
  · exact SplitFractions.sublist_rowsIn_train hf hg

/-- Four ratings with draws on both thresholds, split twice. -/
theorem split_is_nested_partition_rational :
    let ratings : Frame ℚ := ⟨⟨[("user", .ints .signed [1, 1, 2, 2]),
      ("rating", .ints .signed [3, 4, 5, 1])]⟩⟩
    let draws : Draws ℚ := .ofSource fun n => n / 4
    let f : SplitFractions ℚ := ⟨.real (1 / 4), .real (1 / 4)⟩
    let g : SplitFractions ℚ := ⟨.real (1 / 2), .real (1 / 4)⟩
    (∀ u ∈ (draws.take ratings.size).1, 0 ≤ u ∧ u < 1) ∧
      f.assign ratings.size draws = .ok [.test, .validation, .train, .train] ∧
      g.assign ratings.size draws = .ok [.test, .test, .validation, .train] ∧
      f.SharesOut ratings [.test, .validation, .train, .train] ∧
      [0].Sublist [0, 1] ∧ [3].Sublist [2, 3] := by
  intro ratings draws f g
  have hdraws : ∀ u ∈ (draws.take ratings.size).1, 0 ≤ u ∧ u < 1 := by decide +kernel
  have hf : f.assign ratings.size draws = .ok [.test, .validation, .train, .train] := by
    decide +kernel
  have hg : g.assign ratings.size draws = .ok [.test, .test, .validation, .train] := by
    decide +kernel
  have hsplit := split_is_nested_partition ratings draws hdraws
  obtain ⟨parts, hparts, hshares⟩ := (hsplit.1 f).2 (by decide +kernel)
  obtain ⟨-, htest, htrain⟩ := hsplit.2 f g _ _ hf hg
  rw [hf] at hparts
  cases hparts
  exact ⟨hdraws, hf, hg, hshares, htest (by decide +kernel), htrain (by decide +kernel)⟩

end LatentFactors
