import Mathlib.Data.List.MinMax
import LatentFactors.Proofs.Arithmetic.Rational
import LatentFactors.Proofs.SideInfo
import LatentFactors.Proofs.Vec.Writing

/-!
# Decoding the long format

A frame in long format (`Frame.LongFormat`) is a list of rows, each with a key, the index
of an entry and its value.  The size of the vectors follows from the largest index of all
rows, with and without a complete key (`Frame.LongFormat.sideSize_eq_ok_iff`), and the vector of
a key from the rows with that key, in their order (`Frame.LongFormat.sideVector_eq_ok_iff`).

Indices are read as words with a sign (`SideRow.asRead`).  Smaller and larger ones are refused in
a column without a width.  In one of words without a sign, the large ones become negative.
-/

namespace LatentFactors

/-- A row of side information. -/
structure SideRow (α : Type) where
  key : RowKey
  feature : Int
  value : α

namespace SideRow

variable {α : Type}

/-- The rows of a key. -/
def withKey (rows : List (SideRow α)) (key : RowKey) : List (SideRow α) :=
  rows.filter (·.key = key)

theorem mem_withKey {rows : List (SideRow α)} {key : RowKey} {row : SideRow α} :
    row ∈ withKey rows key ↔ row ∈ rows ∧ row.key = key := by
  rw [withKey, List.mem_filter, decide_eq_true_eq]

/-- The value in the last row with a key and an index. -/
def lastValue (rows : List (SideRow α)) (key : RowKey) (i : Int) : Option α :=
  ((rows.filter fun row => row.key = key ∧ row.feature = i).getLast?).map (·.value)

/-- The row with its index as it is read: as a word with a sign. -/
def asRead (row : SideRow α) : SideRow α := { row with feature := Width.signed.wrap row.feature }

/-- The largest index of all rows. -/
def largestFeature (rows : List (SideRow α)) : Option Int := (rows.map (·.feature)).max?

theorem lastNumber_eq_lastValue (rows : List (SideRow α)) (key : RowKey) (i : Int) :
    Vec.lastNumber ((withKey rows key).map fun row => (row.feature, row.value)) i =
      lastValue rows key i := by
  rw [Vec.lastNumber, lastValue, withKey, List.filter_map, List.getLast?_map, Option.map_map,
    List.filter_filter]
  simp [Function.comp_def, and_comm]

theorem lastValue_eq_none_iff {rows : List (SideRow α)} {key : RowKey} {i : Int} :
    lastValue rows key i = none ↔ ∀ row ∈ rows, row.key = key → row.feature ≠ i := by
  rw [lastValue, Option.map_eq_none_iff, List.getLast?_eq_none_iff, List.filter_eq_nil_iff]
  simp

theorem withKey_map_asRead (rows : List (SideRow α)) (key : RowKey) :
    withKey (rows.map asRead) key = (withKey rows key).map asRead := by
  rw [withKey, withKey, List.filter_map]
  rfl

/-- Indices that fit a word with a sign are read as they are. -/
theorem lastValue_map_asRead {rows : List (SideRow α)} {key : RowKey}
    (h : ∀ row ∈ rows, row.key = key → Width.signed.fits row.feature = true) (i : Int) :
    lastValue (rows.map asRead) key i = lastValue rows key i := by
  have hread : (withKey rows key).map asRead = withKey rows key := by
    refine (List.map_congr_left fun row hrow => ?_).trans (List.map_id _)
    obtain ⟨hmem, hkey⟩ := mem_withKey.1 hrow
    rw [asRead, Width.wrap_of_fits (h row hmem hkey)]
    rfl
  rw [← lastNumber_eq_lastValue, ← lastNumber_eq_lastValue, withKey_map_asRead, hread]

theorem largestFeature_eq_none_iff {rows : List (SideRow α)} :
    largestFeature rows = none ↔ rows = [] := by
  rw [largestFeature, List.max?_eq_none_iff, List.map_eq_nil_iff]

/-- The largest index of the rows is one of them, and none is larger. -/
theorem largestFeature_eq_some_iff {rows : List (SideRow α)} {top : Int} :
    largestFeature rows = some top ↔
      (∃ row ∈ rows, row.feature = top) ∧ ∀ row ∈ rows, row.feature ≤ top := by
  rw [largestFeature, List.max?_eq_some_iff, List.mem_map, List.forall_mem_map]

end SideRow

open SideRow

namespace Frame

variable {α : Type} [Scalar α]

/-- A frame of side information, row by row. -/
structure LongFormat (f : Frame α) (key : KeyColumns) (rows : List (SideRow α)) : Prop
    extends f.KeyedBy key (rows.map (·.key)) where
  features : ∃ width, f.column "feature" = .ok (.ints width (rows.map (·.feature))) ∧
    ∀ row ∈ rows, width.fits row.feature = true
  values : f.values "value" = .ok (rows.map (·.value))

end Frame

theorem Width.fits_signed_iff {n : Int} :
    Width.signed.fits n = true ↔ -signedLimit ≤ n ∧ n < signedLimit := by
  rw [fits, Bool.and_eq_true, decide_eq_true_eq, decide_eq_true_eq]

/-- Integers are read as words with a sign.  They have to fit these if their column has no
width. -/
theorem Column.wholeNumbers_ints_eq_ok_iff {α : Type} [Scalar α] {width : Width}
    {ns ms : List Int} :
    (ints (α := α) width ns).wholeNumbers = .ok ms ↔
      (width = .unbounded → ∀ n ∈ ns, Width.signed.fits n = true) ∧
        ms = ns.map Width.signed.wrap := by
  have hword (n m : Int) : signedWord (α := α) width n = .ok m ↔
      (width = .unbounded → Width.signed.fits n = true) ∧ Width.signed.wrap n = m := by
    cases width with
    | signed | unsigned => simp [signedWord]
    | unbounded =>
      by_cases hfits : Width.signed.fits n = true
      · simp [signedWord, hfits, Width.wrap_of_fits hfits]
      · simp [signedWord, hfits]
  have hwhole : (ints (α := α) width ns).wholeNumbers = .ok ms ↔
      List.Forall₂ (fun n m => (width = .unbounded → Width.signed.fits n = true) ∧
        Width.signed.wrap n = m) ns ms := by
    refine Outcome.mapM_eq_ok_iff.trans ⟨fun h => h.imp fun n m => (hword n m).1, ?_⟩
    exact fun h => h.imp fun n m => (hword n m).2
  rw [hwhole, List.forall₂_and_left, ← List.forall₂_map_left_iff (R := Eq),
    List.forall₂_eq_eq_eq, eq_comm (a := ms)]
  exact and_congr_left' ⟨fun h hwidth n hn => h n hn hwidth, fun h n hn hwidth => h hwidth n hn⟩

/-- What is read of an integer in a column whose integers can be read: itself, or, for one that
only a word without a sign holds, a negative one. -/
theorem Width.wrap_signed_cases {width : Width} {n : Int} (h : width.fits n = true)
    (hword : width = .unbounded → Width.signed.fits n = true) :
    Width.signed.fits n = true ∧ Width.signed.wrap n = n ∨
      signedLimit ≤ n ∧ Width.signed.wrap n = n - unsignedLimit := by
  by_cases hfits : Width.signed.fits n = true
  · exact .inl ⟨hfits, Width.wrap_of_fits hfits⟩
  · cases width with
    | signed => exact absurd h hfits
    | unbounded => exact absurd (hword rfl) hfits
    | unsigned =>
      rw [Width.fits, Bool.and_eq_true, decide_eq_true_eq, decide_eq_true_eq, unsignedLimit] at h
      rw [Width.fits_signed_iff, signedLimit] at hfits
      have hlimit : unsignedLimit.toNat = 18446744073709551616 := rfl
      rw [Width.wrap, hlimit, signedLimit, unsignedLimit]
      have hlow := Int.le_bmod (x := n) (m := 18446744073709551616) (by decide)
      have hhigh := Int.bmod_lt (x := n) (m := 18446744073709551616) (by decide)
      have hmod := Int.bmod_emod (x := n) (m := 18446744073709551616)
      omega

/-- Below a size, what is read of an integer is an index exactly if the integer is one: it is read
as it is, or it is large, and then both are. -/
theorem Width.wrap_signed_isIndex_iff {width : Width} {n size : Int} (h : width.fits n = true)
    (hword : width = .unbounded → Width.signed.fits n = true) (hbelow : n < size) :
    (-size ≤ Width.signed.wrap n ∧ Width.signed.wrap n < size) ↔ -size ≤ n := by
  obtain ⟨-, hwrap⟩ | ⟨hlarge, hwrap⟩ := wrap_signed_cases h hword
  · rw [hwrap]
    exact and_iff_left hbelow
  · rw [signedLimit] at hlarge
    rw [hwrap, unsignedLimit]
    omega

namespace Frame.LongFormat

variable {α : Type} [Scalar α] {f : Frame α} {key : KeyColumns} {rows : List (SideRow α)}

theorem size_eq (hf : f.LongFormat key rows) : f.size = rows.length := by
  rw [← hf.length_eq, List.length_map]

theorem sideSize_eq (hf : f.LongFormat key rows) (size : Option Int) :
    f.sideSize size = match size, largestFeature rows with
      | none, none => .ok 0
      | none, some top => .ok (top + 1)
      | some n, none => .ok n
      | some n, some top =>
        if top < n then .ok n else .error (.featureOutside (.integer top) n) := by
  obtain ⟨width, hcolumn, -⟩ := hf.features
  cases hlargest : largestFeature rows with
  | none =>
    have hempty : f.size = 0 := by
      rw [hf.size_eq, largestFeature_eq_none_iff.1 hlargest]
      rfl
    rw [sideSize, if_pos hempty]
    cases size <;> rfl
  | some top =>
    have hrows : ¬f.size = 0 := fun hempty => by
      rw [hf.size_eq, List.length_eq_zero_iff] at hempty
      rw [largestFeature_eq_none_iff.2 hempty] at hlargest
      cases hlargest
    have htop : (Column.ints (α := α) width (rows.map (·.feature))).largest =
        .ok (some (.integer top)) :=
      congrArg (fun top? : Option Int => Except.ok (top?.map Numeral.integer)) hlargest
    rw [sideSize, if_neg hrows, hcolumn, Outcome.bind_ok, htop, Outcome.bind_ok]
    cases size with
    | none => rfl
    | some n =>
      by_cases hlt : top < n
      · simp only [Numeral.isBelow, hlt]
        rfl
      · simp only [Numeral.isBelow, hlt]
        rfl

/-- The size is the given one, or one more than the largest index, and above all indices. -/
theorem sideSize_eq_ok_iff (hf : f.LongFormat key rows) {size : Option Int} {n : Int} :
    f.sideSize size = .ok n ↔
      n = size.getD ((largestFeature rows).elim 0 (· + 1)) ∧ ∀ row ∈ rows, row.feature < n := by
  rw [hf.sideSize_eq]
  cases hlargest : largestFeature rows with
  | none =>
    obtain rfl := largestFeature_eq_none_iff.1 hlargest
    cases size <;> simp [eq_comm]
  | some top =>
    obtain ⟨⟨row, hrow, htop⟩, hle⟩ := largestFeature_eq_some_iff.1 hlargest
    have hbelow : (∀ row ∈ rows, row.feature < n) ↔ top < n :=
      ⟨fun h => htop ▸ h row hrow, fun h row hrow => Int.lt_of_le_of_lt (hle row hrow) h⟩
    rw [hbelow]
    cases size with
    | none =>
      simp only [Except.ok.injEq, Option.elim_some, Option.getD_none]
      omega
    | some m =>
      dsimp only [Option.getD_some]
      split <;> simp <;> omega

/-- A size is found unless one is given that the largest index does not fit. -/
theorem sideSize_of_fits (hf : f.LongFormat key rows) {size : Option Int}
    (hfit : ∀ n top, size = some n → largestFeature rows = some top → top < n) :
    f.sideSize size = .ok (size.getD ((largestFeature rows).elim 0 (· + 1))) := by
  refine hf.sideSize_eq_ok_iff.2 ⟨rfl, fun row hrow => ?_⟩
  obtain ⟨top, htop⟩ : ∃ top, largestFeature rows = some top :=
    Option.ne_none_iff_exists'.1 fun hnone => by
      rw [largestFeature_eq_none_iff.1 hnone] at hrow
      cases hrow
  have hle := (largestFeature_eq_some_iff.1 htop).2 row hrow
  cases size with
  | none =>
    rw [htop, Option.getD_none, Option.elim_some]
    exact Int.lt_add_one_of_le hle
  | some n => exact Int.lt_of_le_of_lt hle (hfit n top rfl htop)

omit [Scalar α] in
/-- The rows of a complete key are those that have it. -/
theorem rowsOf_eq_places {k : RowKey} (hcomplete : k.isComplete = true) :
    rowsOf k ((rows.map (·.key)).map RowKey.whole?) = places (·.key = k) rows := by
  rw [LatentFactors.rowsOf_eq_places, List.map_map, places_map]
  refine places_congr (List.map_congr_left fun row _ => decide_eq_decide.2 ?_)
  exact RowKey.whole?_eq_some_iff.trans (and_iff_left hcomplete)

/-- The rows of a key are picked, their indices read, and a vector is made of both. -/
theorem sideVector_rowsOf (hf : f.LongFormat key rows) {width : Width}
    (hcolumn : f.column "feature" = .ok (.ints width (rows.map (·.feature)))) {k : RowKey}
    (hcomplete : k.isComplete = true) (n : Int) :
    f.sideVector n (rowsOf k ((rows.map (·.key)).map RowKey.whole?)) = (do
      let indices ← (Column.ints width ((withKey rows k).map (·.feature))).wholeNumbers
      Vec.ofEntries n (indices.zip ((withKey rows k).map fun row => .real row.value))) := by
  obtain ⟨c, hc, hvalues⟩ := Outcome.bind_eq_ok.1 hf.values
  have hpick {β : Type} (g : SideRow α → β) :
      pickRows (places (·.key = k) rows) (rows.map g) = (withKey rows k).map g := by
    rw [pickRows_map, pickRows_places]
    rfl
  have hindices : (Column.ints (α := α) width (rows.map (·.feature))).pick
      (places (·.key = k) rows) = .ints width ((withKey rows k).map (·.feature)) :=
    congrArg (Column.ints width) (hpick _)
  have hentries : (c.pick (places (·.key = k) rows)).values =
      .ok ((withKey rows k).map (·.value)) := by
    rw [Column.values_pick hvalues, hpick]
  rw [sideVector, rowsOf_eq_places hcomplete]
  simp only [hcolumn, hc, hindices, hentries, Outcome.bind_ok, List.map_map]
  rfl

/-- The vector of a key is made of the indices and values of its rows, if the indices can be
read. -/
theorem sideVector_eq_ok_iff (hf : f.LongFormat key rows) {width : Width}
    (hcolumn : f.column "feature" = .ok (.ints width (rows.map (·.feature)))) {k : RowKey}
    (hcomplete : k.isComplete = true) {n : Int} {v : Vec α} :
    f.sideVector n (rowsOf k ((rows.map (·.key)).map RowKey.whole?)) = .ok v ↔
      (width = .unbounded →
        ∀ row ∈ rows, row.key = k → Width.signed.fits row.feature = true) ∧
      Vec.ofEntries n (((withKey (rows.map asRead) k).map fun row =>
        (row.feature, row.value)).map fun e => (e.1, .real e.2)) = .ok v := by
  have hread : ((withKey (rows.map asRead) k).map fun row => (row.feature, row.value)).map
      (fun e => (e.1, Numeral.real e.2)) =
        (((withKey rows k).map (·.feature)).map Width.signed.wrap).zip
          ((withKey rows k).map fun row => .real row.value) := by
    rw [withKey_map_asRead, List.map_map, List.map_map, List.map_map, List.zip_map']
    rfl
  have hwords : (∀ i ∈ (withKey rows k).map (·.feature), Width.signed.fits i = true) ↔
      ∀ row ∈ rows, row.key = k → Width.signed.fits row.feature = true := by
    simp only [List.forall_mem_map, mem_withKey, and_imp]
  simp only [hf.sideVector_rowsOf hcolumn hcomplete, Outcome.bind_eq_ok,
    Column.wholeNumbers_ints_eq_ok_iff, hwords, hread]
  constructor
  · rintro ⟨_, ⟨hword, rfl⟩, hv⟩
    exact ⟨hword, hv⟩
  · rintro ⟨hword, hv⟩
    exact ⟨_, ⟨hword, rfl⟩, hv⟩

/-- If all indices are below the size, then a vector can be made exactly when the indices
of its rows are not below minus the size and can be read. -/
theorem exists_sideVector_iff (hf : f.LongFormat key rows) {width : Width}
    (hcolumn : f.column "feature" = .ok (.ints width (rows.map (·.feature)))) {k : RowKey}
    (hcomplete : k.isComplete = true) (hk : ∃ row ∈ rows, row.key = k) {n : Int}
    (hbelow : ∀ row ∈ rows, row.feature < n) :
    (∃ v, f.sideVector n (rowsOf k ((rows.map (·.key)).map RowKey.whole?)) = .ok v) ↔
      ∀ row ∈ rows, row.key = k → -n ≤ row.feature ∧
        (width = .unbounded → Width.signed.fits row.feature = true) := by
  have hwidth : ∀ row ∈ rows, width.fits row.feature = true := by
    obtain ⟨width', hcolumn', hwidth⟩ := hf.features
    rw [hcolumn] at hcolumn'
    cases hcolumn'
    exact hwidth
  have hentries : (∃ v, Vec.ofEntries n (((withKey (rows.map asRead) k).map fun row =>
      (row.feature, row.value)).map fun e => (e.1, .real e.2)) = .ok v) ↔
        0 ≤ n ∧ ∀ row ∈ rows, row.key = k →
          -n ≤ Width.signed.wrap row.feature ∧ Width.signed.wrap row.feature < n := by
    rw [Vec.exists_ofEntries_iff, withKey_map_asRead]
    simp only [List.forall_mem_map, mem_withKey, and_imp, asRead]
  simp only [hf.sideVector_eq_ok_iff hcolumn hcomplete, exists_and_left, hentries]
  have hread {row : SideRow α} (hrow : row ∈ rows)
      (hword : width = .unbounded → Width.signed.fits row.feature = true) :=
    Width.wrap_signed_isIndex_iff (hwidth row hrow) hword (hbelow row hrow)
  constructor
  · rintro ⟨hword, -, hrange⟩ row hrow hkey
    have hrowWord := fun hw => hword hw row hrow hkey
    exact ⟨(hread hrow hrowWord).1 (hrange row hrow hkey), hrowWord⟩
  · intro h
    refine ⟨fun hw row hrow hkey => (h row hrow hkey).2 hw, ?_, fun row hrow hkey => ?_⟩
    · obtain ⟨row, hrow, hkey⟩ := hk
      have hlow := (h row hrow hkey).1
      have hhigh := hbelow row hrow
      omega
    · exact (hread hrow (h row hrow hkey).2).2 (h row hrow hkey).1

/-- The vectors can be made exactly when the indices of complete keys are not below minus the
size and can be read. -/
theorem exists_vectors_iff (hf : f.LongFormat key rows) {width : Width}
    (hcolumn : f.column "feature" = .ok (.ints width (rows.map (·.feature)))) {size : Option Int}
    {n : Int} (hn : f.sideSize size = .ok n) :
    (∃ vectors, f.sideVectors key size = .ok vectors) ↔
      ∀ row ∈ rows, row.key.isComplete = true → -n ≤ row.feature ∧
        (width = .unbounded → Width.signed.fits row.feature = true) := by
  have hvector {k : RowKey} (hk : ∃ row ∈ rows, row.key = k) (hcomplete : k.isComplete = true) :=
    hf.exists_sideVector_iff hcolumn hcomplete hk (hf.sideSize_eq_ok_iff.1 hn).2
  rw [hf.exists_sideVectors_iff hn, List.forall_mem_map]
  constructor
  · intro h row hrow hcomplete
    exact (hvector ⟨row, hrow, rfl⟩ hcomplete).1 (h row hrow hcomplete) row hrow rfl
  · intro h row hrow hcomplete
    refine (hvector ⟨row, hrow, rfl⟩ hcomplete).2 ?_
    exact fun other hother hkey => h other hother (hkey ▸ hcomplete)

/-- The vectors have the size that was found.  At every place of one stands the last value
for one of the two indices that name the place, as they are read, if one of them has a
value. -/
theorem entry_of_sideVectors (hf : f.LongFormat key rows) {size : Option Int} {n : Int}
    (hn : f.sideSize size = .ok n) {vectors : List (RowKey × Vec α)}
    (hvectors : f.sideVectors key size = .ok vectors) {e : RowKey × Vec α} (he : e ∈ vectors) :
    e.2.isSparse = true ∧ (e.2.size : Int) = n ∧ ∀ place : Nat, place < e.2.size →
      ∃ i : Int, (i = place ∨ i = place - n) ∧
        e.2.entry place = Vec.stored (lastValue (rows.map asRead) e.1 i) ∧
        (lastValue (rows.map asRead) e.1 i = none →
          lastValue (rows.map asRead) e.1 place = none ∧
            lastValue (rows.map asRead) e.1 (place - n) = none) := by
  obtain ⟨hlists, m, hm, hvector⟩ := hf.lists_of_sideVectors hvectors
  obtain rfl : n = m := Except.ok.inj (hn.symm.trans hm)
  obtain ⟨-, hcomplete⟩ := (hlists.mem_iff e.1).1 (List.mem_map.2 ⟨e, he, rfl⟩)
  obtain ⟨width, hcolumn, -⟩ := hf.features
  obtain ⟨-, hmade⟩ := (hf.sideVector_eq_ok_iff hcolumn hcomplete).1 (hvector e he)
  have hentries := Vec.entry_ofEntries hmade
  simp only [lastNumber_eq_lastValue] at hentries
  exact hentries

end Frame.LongFormat

/-- What the vectors of a frame in long format are: one for each complete key of the rows,
in ascending order, with the last value for an index at that index. -/
structure Decodes {α : Type} [Scalar α] (rows : List (SideRow α)) (n : Int)
    (vectors : List (RowKey × Vec α)) : Prop where
  keys : ListsKeys (rows.map (·.key)) (vectors.map (·.1))
  sizes : ∀ e ∈ vectors, e.2.isSparse = true ∧ (e.2.size : Int) = n
  entries : ∀ e ∈ vectors, ∀ i : Nat, e.2.entry i = Vec.stored (lastValue rows e.1 i)

namespace Frame.LongFormat

variable {α : Type} [Scalar α] {f : Frame α} {key : KeyColumns} {rows : List (SideRow α)}

/-- Vectors are decoded right if a word with a sign holds the indices of complete keys, and
none of these is negative. -/
theorem decodes_of_sideVectors (hf : f.LongFormat key rows)
    (hindices : ∀ row ∈ rows, row.key.isComplete = true →
      0 ≤ row.feature ∧ row.feature < signedLimit) {size : Option Int}
    {n : Int} (hn : f.sideSize size = .ok n) {vectors : List (RowKey × Vec α)}
    (hvectors : f.sideVectors key size = .ok vectors) : Decodes rows n vectors := by
  obtain ⟨hlists, -⟩ := hf.lists_of_sideVectors hvectors
  refine ⟨hlists, fun e he => ?_, fun e he i => ?_⟩
  · obtain ⟨hsparse, hsize, -⟩ := hf.entry_of_sideVectors hn hvectors he
    exact ⟨hsparse, hsize⟩
  · obtain ⟨-, hsize, hentry⟩ := hf.entry_of_sideVectors hn hvectors he
    have hcomplete := ((hlists.mem_iff e.1).1 (List.mem_map.2 ⟨e, he, rfl⟩)).2
    have hwords : ∀ row ∈ rows, row.key = e.1 → Width.signed.fits row.feature = true := by
      intro row hrow hkey
      obtain ⟨hnonneg, hlimit⟩ := hindices row hrow (hkey ▸ hcomplete)
      exact Width.fits_signed_iff.2 ⟨Int.le_trans (by decide) hnonneg, hlimit⟩
    simp only [lastValue_map_asRead hwords] at hentry
    by_cases hi : i < e.2.size
    · obtain ⟨j, rfl | rfl, hj, hnone⟩ := hentry i hi
      · exact hj
      · have hnegative : lastValue rows e.1 (i - n) = none :=
          lastValue_eq_none_iff.2 fun row hrow hkey => by
            have := (hindices row hrow (hkey ▸ hcomplete)).1
            omega
        rw [hj, hnegative, (hnone hnegative).1]
    · have hlarge : lastValue rows e.1 i = none :=
        lastValue_eq_none_iff.2 fun row hrow _ => by
          have := (hf.sideSize_eq_ok_iff.1 hn).2 row hrow
          omega
      rw [Vec.entry_of_size_le (Nat.le_of_not_lt hi), hlarge]
      rfl

end Frame.LongFormat

/-- A frame in long format is decoded row by row, if no index is negative and a word with a sign
holds those of complete keys.  It is refused exactly if an index does not fit the given size. -/
theorem long_format_is_decoded {α : Type} [Scalar α] {f : Frame α} {key : KeyColumns}
    {rows : List (SideRow α)} (hf : f.LongFormat key rows)
    (hfeatures : ∀ row ∈ rows, 0 ≤ row.feature)
    (hwords : ∀ row ∈ rows, row.key.isComplete = true → row.feature < signedLimit)
    (size : Option Int) :
    (∀ n top, size = some n → largestFeature rows = some top → n ≤ top →
      f.sideVectors key size = .error (.featureOutside (.integer top) n)) ∧
    ((∀ n top, size = some n → largestFeature rows = some top → top < n) →
      ∃ vectors, f.sideVectors key size = .ok vectors ∧
        Decodes rows (size.getD ((largestFeature rows).elim 0 (· + 1))) vectors) := by
  refine ⟨?_, fun hfit => ?_⟩
  · rintro n top rfl htop hle
    rw [hf.sideVectors_eq, hf.sideSize_eq, htop]
    dsimp only
    rw [if_neg (Int.not_lt.2 hle)]
    rfl
  · have hn := hf.sideSize_of_fits hfit
    obtain ⟨width, hcolumn, -⟩ := hf.features
    have hindices : ∀ row ∈ rows, row.key.isComplete = true →
        0 ≤ row.feature ∧ row.feature < signedLimit :=
      fun row hrow hcomplete => ⟨hfeatures row hrow, hwords row hrow hcomplete⟩
    obtain ⟨vectors, hvectors⟩ := (hf.exists_vectors_iff hcolumn hn).2 fun row hrow hcomplete => by
      obtain ⟨hnonneg, hlimit⟩ := hindices row hrow hcomplete
      have hhigh := (hf.sideSize_eq_ok_iff.1 hn).2 row hrow
      exact ⟨by omega, fun _ => Width.fits_signed_iff.2 ⟨Int.le_trans (by decide) hnonneg, hlimit⟩⟩
    exact ⟨vectors, hvectors, hf.decodes_of_sideVectors hindices hn hvectors⟩

/-- Pairs of users and items in any order, with a user missing, an index that is repeated
and a zero. -/
theorem long_format_is_decoded_rational :
    let f : Frame ℚ := ⟨⟨[("user", .texts [some "b", none, some "a", some "b", some "b"]),
      ("item", .ints .signed [1, 2, 1, 1, 1]), ("feature", .ints .signed [2, 5, 0, 2, 1]),
      ("value", .reals [some 1, some 2, some 3, some 4, some 0])]⟩⟩
    let b : RowKey := .parts [.text "b", .int 1]
    let rows : List (SideRow ℚ) := [⟨b, 2, 1⟩, ⟨.parts [⟨.missing, none⟩, .int 2], 5, 2⟩,
      ⟨.parts [.text "a", .int 1], 0, 3⟩, ⟨b, 2, 4⟩, ⟨b, 1, 0⟩]
    f.LongFormat (.several ["user", "item"]) rows ∧ (∀ row ∈ rows, 0 ≤ row.feature) ∧
      (∀ row ∈ rows, row.key.isComplete = true → row.feature < signedLimit) ∧
      (∃ vectors, f.sideVectors (.several ["user", "item"]) none = .ok vectors ∧
        Decodes rows 6 vectors) ∧
      f.sideVectors (.several ["user", "item"]) (some 5) =
        .error (.featureOutside (.integer 5) 5) := by
  intro f b rows
  have hf : f.LongFormat (.several ["user", "item"]) rows := {
    rectangular := by unfold Frame.Rectangular; decide
    reads := ⟨by decide, _, rfl, rfl⟩
    features := ⟨.signed, rfl, by decide⟩
    values := rfl }
  have hfeatures : ∀ row ∈ rows, 0 ≤ row.feature := by decide
  have hwords : ∀ row ∈ rows, row.key.isComplete = true → row.feature < signedLimit := by decide
  refine ⟨hf, hfeatures, hwords, ?_, ?_⟩
  · exact (long_format_is_decoded hf hfeatures hwords none).2 nofun
  · exact (long_format_is_decoded hf hfeatures hwords (some 5)).1 5 5 rfl rfl (by decide)

/-- An index that no word holds is refused, although no size is given.  One that only a word
without a sign holds is accepted, and its value is stored at another index. -/
theorem large_indices_are_not_decoded :
    let f (width : Width) (feature : Int) : Frame ℚ := ⟨⟨[("user", .ints .signed [1]),
      ("feature", .ints width [feature]), ("value", .reals [some 1])]⟩⟩
    let rows (feature : Int) : List (SideRow ℚ) := [⟨.single (.int 1), feature, 1⟩]
    ((f .unbounded unsignedLimit).LongFormat (.one "user") (rows unsignedLimit) ∧
      (f .unbounded unsignedLimit).sideVectors (.one "user") none = .error .tooLarge) ∧
    (f .unsigned signedLimit).LongFormat (.one "user") (rows signedLimit) ∧
      ∃ v, (f .unsigned signedLimit).sideVectors (.one "user") none =
        .ok [(.single (.int 1), v)] ∧ v.entry 1 = 1 ∧ v.entry signedLimit.toNat = 0 := by
  intro f rows
  have hsorted : sortedKeys [.single (.int 1)] = [.single (.int 1)] := List.mergeSort_singleton _
  have hlong (width : Width) (feature : Int) (h : width.fits feature = true) :
      (f width feature).LongFormat (.one "user") (rows feature) := {
    rectangular := by unfold Frame.Rectangular; simp [f, Column.size, Frame.size]
    reads := ⟨_, rfl, rfl⟩
    features := ⟨width, rfl, by simpa [rows] using h⟩
    values := rfl }
  have hunbounded := hlong .unbounded unsignedLimit rfl
  have hunsigned := hlong .unsigned signedLimit rfl
  refine ⟨⟨hunbounded, ?_⟩, hunsigned, ?_⟩
  · rw [hunbounded.sideVectors_eq, List.map_singleton, hsorted]
    rfl
  · refine ⟨(Vec.sparse (.zero (signedLimit + 1).toNat)).set 1 1 (by decide), ?_, ?_, ?_⟩
    · rw [hunsigned.sideVectors_eq, List.map_singleton, hsorted]
      rfl
    · decide +kernel
    · decide +kernel

end LatentFactors
