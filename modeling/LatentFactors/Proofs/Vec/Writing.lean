import LatentFactors.Proofs.Table
import LatentFactors.Proofs.Vec.Entries

/-!
# Vectors from lists of entries

Two indices name a place of a vector: the place itself, and the negative one that counts
from the end (`place?_eq_some_iff`).  Entries that are written one after the other leave
at every place the last one that names it (`Vec.entry_of_foldlM_write`).

A sparse vector of any size can be made of a list of entries exactly when every index
names a place (`Vec.exists_ofEntries_iff`).  Repeated indices take their last number, so the
entry at a place is the last number of the place's index or of the negative one
(`Vec.entry_ofEntries`), and that of the index if no negative one is there.
-/

namespace LatentFactors

/-! ## Places -/

theorem place?_eq_some_iff {size place : Nat} {i : Int} :
    place? size i = some place ↔ place < size ∧ (i = place ∨ i = place - size) := by
  unfold place?
  split
  · split
    · rw [Option.some.injEq]
      omega
    · exact iff_of_false nofun (by omega)
  · split
    · rw [Option.some.injEq]
      omega
    · exact iff_of_false nofun (by omega)

/-- The indices that name a place are those from minus the size on, below the size. -/
theorem exists_place?_iff {size : Nat} {i : Int} :
    (∃ place, place? size i = some place) ↔ -(size : Int) ≤ i ∧ i < size := by
  simp only [place?_eq_some_iff]
  constructor
  · rintro ⟨place, hlt, h⟩
    omega
  · rintro ⟨hlow, hhigh⟩
    by_cases hnonneg : 0 ≤ i
    · exact ⟨i.toNat, by omega, .inl (by omega)⟩
    · exact ⟨(i + size).toNat, by omega, .inr (by omega)⟩

namespace Vec

variable {α : Type} [Scalar α]

/-! ## Writing -/

/-- A number is written if its index names a place and it is in range. -/
theorem write_eq_ok_iff {v w : Vec α} {i : Int} {y : Numeral α} :
    v.write i y = .ok w ↔ ∃ place, ∃ h : place? v.size i = some place,
      (∃ x, Outcome.real y = .ok x) ∧ w = v.set place y.value (place?_lt h) := by
  have hput : ∀ u, v.put i y.value = .ok u ↔
      ∃ place, ∃ h : place? v.size i = some place, u = v.set place y.value (place?_lt h) := by
    intro u
    rw [put]
    split
    · next place h =>
      rw [Except.ok.injEq]
      refine ⟨fun hu => ⟨place, h, hu.symm⟩, ?_⟩
      rintro ⟨place', h', rfl⟩
      obtain rfl : place = place' := Option.some.inj (h.symm.trans h')
      rfl
    · next h =>
      refine iff_of_false (fun hu => by cases hu) ?_
      rintro ⟨place, h', -⟩
      rw [h] at h'
      cases h'
  simp only [write, Outcome.bind_eq_ok, hput]
  constructor
  · rintro ⟨u, ⟨place, h, rfl⟩, x, hx, hu⟩
    cases hu
    exact ⟨place, h, ⟨x, hx⟩, rfl⟩
  · rintro ⟨place, h, ⟨x, hx⟩, rfl⟩
    exact ⟨_, ⟨place, h, rfl⟩, x, hx, rfl⟩

theorem exists_foldlM_write_iff {entries : List (Int × Numeral α)} {v : Vec α} :
    (∃ w, entries.foldlM (fun v e => v.write e.1 e.2) v = .ok w) ↔
      ∀ e ∈ entries, (∃ place, place? v.size e.1 = some place) ∧
        ∃ x, Outcome.real e.2 = .ok x := by
  induction entries generalizing v with
  | nil => exact iff_of_true ⟨v, rfl⟩ nofun
  | cons e rest ih =>
    simp only [List.foldlM_cons, Outcome.bind_eq_ok, List.forall_mem_cons]
    constructor
    · rintro ⟨w, u, hu, hw⟩
      obtain ⟨place, h, hx, rfl⟩ := write_eq_ok_iff.1 hu
      have hrest := ih.1 ⟨w, hw⟩
      rw [size_set] at hrest
      exact ⟨⟨⟨place, h⟩, hx⟩, hrest⟩
    · rintro ⟨⟨⟨place, h⟩, hx⟩, hrest⟩
      have hset : (v.set place e.2.value (place?_lt h)).size = v.size := size_set ..
      rw [← hset] at hrest
      obtain ⟨w, hw⟩ := ih.2 hrest
      exact ⟨w, _, write_eq_ok_iff.2 ⟨place, h, hx, rfl⟩, hw⟩

/-- The last one of some entries that is written to a place. -/
def lastAt (size : Nat) (entries : List (Int × Numeral α)) (place : Nat) :
    Option (Int × Numeral α) :=
  (entries.filter fun e => place? size e.1 = some place).getLast?

/-- What is left after writing entries one after the other. -/
theorem entry_of_foldlM_write {entries : List (Int × Numeral α)} {v w : Vec α}
    (h : entries.foldlM (fun v e => v.write e.1 e.2) v = .ok w) :
    w.size = v.size ∧ w.isSparse = v.isSparse ∧ ∀ place,
      w.entry place =
        (lastAt v.size entries place).elim (v.entry place) fun e => v.kept e.2.value := by
  induction entries generalizing v with
  | nil =>
    cases h
    exact ⟨rfl, rfl, fun place => rfl⟩
  | cons e rest ih =>
    rw [List.foldlM_cons] at h
    obtain ⟨u, hu, hw⟩ := Outcome.bind_eq_ok.1 h
    obtain ⟨place, hplace, -, rfl⟩ := write_eq_ok_iff.1 hu
    obtain ⟨hsize, hsparse, hentry⟩ := ih hw
    rw [size_set] at hsize
    rw [isSparse_set] at hsparse
    refine ⟨hsize, hsparse, fun p => ?_⟩
    have hkept : ∀ x, (v.set place e.2.value (place?_lt hplace)).kept x = v.kept x :=
      kept_congr (isSparse_set ..)
    rw [hentry, size_set, lastAt, lastAt, List.filter_cons, entry_set]
    simp only [hkept]
    by_cases hp : place = p
    · subst hp
      rw [if_pos (decide_eq_true hplace), List.getLast?_cons, if_pos rfl]
      cases (rest.filter fun e => place? v.size e.1 = some place).getLast? <;> rfl
    · have hne : ¬place? v.size e.1 = some p := fun h =>
        hp (Option.some.inj (hplace.symm.trans h))
      rw [if_neg hp, if_neg (mt of_decide_eq_true hne)]

/-! ## Vectors of entries -/

/-- What a sparse vector stores for a number that may be missing. -/
def stored (x? : Option α) : α := x?.elim 0 fun x => if Scalar.nonzero x then x else 0

omit [Scalar α] in
/-- The last number of an index among some entries. -/
def lastNumber (entries : List (Int × α)) (i : Int) : Option α :=
  ((entries.filter (·.1 = i)).getLast?).map (·.2)

omit [Scalar α] in
theorem lastNumber_eq_none_iff {entries : List (Int × α)} {i : Int} :
    lastNumber entries i = none ↔ ∀ e ∈ entries, e.1 ≠ i := by
  rw [lastNumber, Option.map_eq_none_iff, List.getLast?_eq_none_iff, List.filter_eq_nil_iff]
  simp

omit [Scalar α] in
private theorem mem_ofList_map_iff_aux {entries : List (Int × α)} {i : Int} {y : Numeral α} :
    (i, y) ∈ (Table.ofList (entries.map fun e => (e.1, Numeral.real e.2))).entries ↔
      ∃ x, lastNumber entries i = some x ∧ y = .real x := by
  rw [Table.mem_ofList_iff, Table.find?_ofList, List.filter_map, List.getLast?_map, Option.map_map,
    Option.map_eq_some_iff]
  simp only [lastNumber, Option.map_eq_some_iff]
  constructor
  · rintro ⟨e, he, rfl⟩
    exact ⟨e.2, ⟨e, he, rfl⟩, rfl⟩
  · rintro ⟨x, ⟨e, he, rfl⟩, rfl⟩
    exact ⟨e, he, rfl⟩

theorem size_ofEntries {size : Int} {entries : List (Int × Numeral α)} {v : Vec α}
    (h : ofEntries size entries = .ok v) : (v.size : Int) = size := by
  obtain ⟨zero, hzero, hv⟩ := Outcome.bind_eq_ok.1 h
  obtain ⟨hnonneg, rfl⟩ := sparseZero_eq_ok hzero
  rw [(entry_of_foldlM_write hv).1]
  exact Int.toNat_of_nonneg hnonneg

theorem exists_ofEntries_iff {size : Int} {entries : List (Int × α)} :
    (∃ v, ofEntries size (entries.map fun e => (e.1, .real e.2)) = .ok v) ↔
      0 ≤ size ∧ ∀ e ∈ entries, -size ≤ e.1 ∧ e.1 < size := by
  by_cases hsize : 0 ≤ size
  · obtain ⟨n, rfl⟩ := Int.eq_ofNat_of_zero_le hsize
    rw [ofEntries, sparseZero_natCast, Outcome.bind_ok, exists_foldlM_write_iff,
      and_iff_right hsize]
    constructor
    · intro h e he
      have hlast : lastNumber entries e.1 ≠ none := fun hnone =>
        lastNumber_eq_none_iff.1 hnone e he rfl
      obtain ⟨x, hx⟩ := Option.ne_none_iff_exists'.1 hlast
      exact exists_place?_iff.1 (h _ (mem_ofList_map_iff_aux.2 ⟨x, hx, rfl⟩)).1
    · rintro h ⟨i, y⟩ hmem
      obtain ⟨x, hx, rfl⟩ := mem_ofList_map_iff_aux.1 hmem
      obtain ⟨e, he, rfl⟩ : ∃ e ∈ entries, e.1 = i := by
        by_contra hnone
        rw [lastNumber_eq_none_iff.2 fun e he heq => hnone ⟨e, he, heq⟩] at hx
        cases hx
      exact ⟨exists_place?_iff.2 (h e he), x, rfl⟩
  · refine iff_of_false ?_ fun h => hsize h.1
    rintro ⟨v, hv⟩
    obtain ⟨zero, hzero, -⟩ := Outcome.bind_eq_ok.1 hv
    exact hsize (sparseZero_eq_ok hzero).1

omit [Scalar α] in
/-- What is written last to a place is the last number of an index that names the place. -/
private theorem lastAt_ofList_aux (entries : List (Int × α)) {n place : Nat} (hplace : place < n) :
    let written := (Table.ofList (entries.map fun e => (e.1, Numeral.real e.2))).entries
    (∃ (i : Int) (x : α), (i = place ∨ i = place - n) ∧ lastNumber entries i = some x ∧
      lastAt n written place = some (i, .real x)) ∨
    (lastAt n written place = none ∧
      ∀ i : Int, (i = place ∨ i = place - n) → lastNumber entries i = none) := by
  intro written
  cases hlast : lastAt n written place with
  | some e =>
    obtain ⟨hmem, hat⟩ := List.mem_filter.1 (List.mem_of_getLast? hlast)
    obtain ⟨x, hx, hy⟩ := mem_ofList_map_iff_aux.1 hmem
    have hnames := (place?_eq_some_iff.1 (of_decide_eq_true hat)).2
    exact .inl ⟨e.1, x, hnames, hx, by rw [← hy]⟩
  | none =>
    refine .inr ⟨rfl, fun i hi => Option.eq_none_iff_forall_not_mem.2 fun x hx => ?_⟩
    have hmem : (i, Numeral.real x) ∈ written := mem_ofList_map_iff_aux.2 ⟨x, hx, rfl⟩
    rw [lastAt, List.getLast?_eq_none_iff, List.filter_eq_nil_iff] at hlast
    exact hlast _ hmem (decide_eq_true (place?_eq_some_iff.2 ⟨hplace, hi⟩))

/-- At every place stands the last number of one of the two indices that name it, if one
of them has a number. -/
theorem entry_ofEntries {size : Int} {entries : List (Int × α)} {v : Vec α}
    (h : ofEntries size (entries.map fun e => (e.1, .real e.2)) = .ok v) :
    v.isSparse = true ∧ (v.size : Int) = size ∧ ∀ place : Nat, place < v.size →
      ∃ i : Int, (i = place ∨ i = place - size) ∧ v.entry place = stored (lastNumber entries i) ∧
        (lastNumber entries i = none →
          lastNumber entries place = none ∧ lastNumber entries (place - size) = none) := by
  obtain ⟨hnonneg, -⟩ := exists_ofEntries_iff.1 ⟨v, h⟩
  obtain ⟨n, rfl⟩ := Int.eq_ofNat_of_zero_le hnonneg
  rw [ofEntries, sparseZero_natCast, Outcome.bind_ok] at h
  obtain ⟨hsize, hsparse, hentry⟩ := entry_of_foldlM_write h
  refine ⟨hsparse, congrArg Nat.cast hsize, fun place hplace => ?_⟩
  replace hplace : place < n := Nat.lt_of_lt_of_eq hplace hsize
  rw [hentry]
  obtain ⟨i, x, hi, hx, hlast⟩ | ⟨hlast, hnone⟩ := lastAt_ofList_aux entries hplace
  · refine ⟨i, hi, ?_, fun hmissing => ?_⟩
    · rw [hx]
      exact congrArg (fun e? : Option (Int × Numeral α) => e?.elim _ _) hlast
    · rw [hx] at hmissing
      cases hmissing
  · refine ⟨place, .inl rfl, ?_, fun _ => ⟨hnone _ (.inl rfl), hnone _ (.inr rfl)⟩⟩
    rw [hnone place (.inl rfl)]
    exact congrArg (fun e? : Option (Int × Numeral α) => e?.elim _ _) hlast

end Vec

end LatentFactors
