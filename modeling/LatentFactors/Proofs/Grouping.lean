import Mathlib.Data.List.Nodup
import Mathlib.Data.List.Forall2
import LatentFactors.Frame

/-!
# Rows by groups

What is picked from a list at some rows belongs to them one by one
(`forall₂_pickRows`), so picking twice is picking at the rows that were picked
(`pickRows_pickRows`).

The groups of a list of keys, one after the other, hold every row once
(`groupedRows_perm`).  The keys come in the order in which they appear first, and the
rows of one key in their own order (`pairwise_groupedRows`).
-/

namespace LatentFactors

variable {κ β γ : Type}

/-! ## Picking -/

theorem pickRows_eq_filterMap (rows : List Nat) (xs : List β) :
    pickRows rows xs = rows.filterMap (xs[·]?) := by
  simp only [pickRows, List.getElem?_toArray]

theorem pickRows_map (rows : List Nat) (f : β → γ) (xs : List β) :
    pickRows rows (xs.map f) = (pickRows rows xs).map f := by
  rw [pickRows_eq_filterMap, pickRows_eq_filterMap, List.map_filterMap]
  simp only [List.getElem?_map]

theorem pickRows_flatMap (keys : List κ) (f : κ → List Nat) (xs : List β) :
    pickRows (keys.flatMap f) xs = keys.flatMap fun k => pickRows (f k) xs := by
  simp only [pickRows_eq_filterMap, List.filterMap_flatMap]

theorem pickRows_perm {rows rows' : List Nat} (h : rows.Perm rows') (xs : List β) :
    (pickRows rows xs).Perm (pickRows rows' xs) := by
  rw [pickRows_eq_filterMap, pickRows_eq_filterMap]
  exact h.filterMap _

/-- At rows of a list, the elements that are picked belong to the rows one by one. -/
theorem forall₂_pickRows {rows : List Nat} {xs : List β} (h : ∀ row ∈ rows, row < xs.length) :
    List.Forall₂ (fun row x => xs[row]? = some x) rows (pickRows rows xs) := by
  rw [pickRows_eq_filterMap]
  induction rows with
  | nil => exact .nil
  | cons row rows ih =>
    have hrow := List.getElem?_eq_getElem (h row List.mem_cons_self)
    rw [List.filterMap_cons_some hrow]
    exact .cons hrow (ih fun i hi => h i (List.mem_cons_of_mem row hi))

theorem length_pickRows {rows : List Nat} {xs : List β} (h : ∀ row ∈ rows, row < xs.length) :
    (pickRows rows xs).length = rows.length :=
  (forall₂_pickRows h).length_eq.symm

theorem getElem?_pickRows {rows : List Nat} {xs : List β} (h : ∀ row ∈ rows, row < xs.length)
    (place : Nat) : (pickRows rows xs)[place]? = rows[place]?.bind (xs[·]?) := by
  rw [pickRows_eq_filterMap]
  induction rows generalizing place with
  | nil => rfl
  | cons row rows ih =>
    have hrow := List.getElem?_eq_getElem (h row List.mem_cons_self)
    rw [List.filterMap_cons_some hrow]
    cases place with
    | zero => exact hrow.symm
    | succ place => exact ih (fun i hi => h i (List.mem_cons_of_mem row hi)) place

theorem pickRows_zip {xs : List β} {ys : List γ} (h : xs.length = ys.length) (rows : List Nat) :
    pickRows rows (xs.zip ys) = (pickRows rows xs).zip (pickRows rows ys) := by
  simp only [pickRows_eq_filterMap]
  induction rows with
  | nil => rfl
  | cons row rows ih =>
    by_cases hrow : row < xs.length
    · have hrow' : row < ys.length := h ▸ hrow
      have hx := List.getElem?_eq_getElem hrow
      have hy := List.getElem?_eq_getElem hrow'
      have hxy : (xs.zip ys)[row]? = some (xs[row], ys[row]) :=
        List.getElem?_zip_eq_some.2 ⟨hx, hy⟩
      rw [List.filterMap_cons_some hx, List.filterMap_cons_some hy,
        List.filterMap_cons_some hxy, ih, List.zip_cons_cons]
    · have hx := List.getElem?_eq_none (Nat.le_of_not_lt hrow)
      have hy := List.getElem?_eq_none (h ▸ Nat.le_of_not_lt hrow)
      have hxy : (xs.zip ys)[row]? = none := by
        rw [List.getElem?_eq_none_iff, List.length_zip]
        omega
      rw [List.filterMap_cons_none hx, List.filterMap_cons_none hy,
        List.filterMap_cons_none hxy, ih]

/-- Picking from what was picked is picking at the rows that were picked. -/
theorem pickRows_pickRows {rows : List Nat} {xs : List β} (h : ∀ row ∈ rows, row < xs.length)
    (places : List Nat) :
    pickRows places (pickRows rows xs) = pickRows (pickRows places rows) xs := by
  have hread : places.filterMap ((pickRows rows xs)[·]?) =
      places.filterMap fun place => rows[place]?.bind (xs[·]?) :=
    List.filterMap_congr fun place _ => getElem?_pickRows h place
  rw [pickRows_eq_filterMap places, hread, pickRows_eq_filterMap _ xs,
    pickRows_eq_filterMap places, List.filterMap_filterMap]

/-- At rows with a key, keys are picked. -/
theorem exists_pickRows_eq_map_some {rows : List Nat} {keys : List (Option κ)}
    (h : ∀ row ∈ rows, ∃ k, keys[row]? = some (some k)) :
    ∃ ks : List κ, pickRows rows keys = ks.map some ∧ ks.length = rows.length := by
  refine ⟨rows.filterMap fun row => keys[row]?.join, ?_, ?_⟩
  · rw [pickRows_eq_filterMap, List.map_filterMap]
    refine List.filterMap_congr fun row hrow => ?_
    obtain ⟨k, hk⟩ := h row hrow
    rw [hk]
    rfl
  · refine List.filterMap_length_eq_length.2 fun row hrow => ?_
    obtain ⟨k, hk⟩ := h row hrow
    rw [hk]
    rfl

theorem pickRows_range (xs : List β) : pickRows (List.range xs.length) xs = xs := by
  refine List.ext_getElem? fun i => ?_
  rw [getElem?_pickRows fun row hrow => List.mem_range.1 hrow]
  by_cases hi : i < xs.length
  · rw [List.getElem?_range hi, Option.bind_some]
  · rw [List.getElem?_eq_none (Nat.le_of_not_lt hi), List.getElem?_eq_none (by simpa using hi)]
    rfl

/-- All rows in another order pick the same elements in another order. -/
theorem pickRows_perm_self {rows : List Nat} {xs : List β}
    (h : rows.Perm (List.range xs.length)) : (pickRows rows xs).Perm xs := by
  have hpicked := pickRows_perm h xs
  rwa [pickRows_range] at hpicked

/-! ## Places -/

/-- The places at which a list has some property. -/
def places (p : β → Bool) (xs : List β) : List Nat :=
  (xs.zipIdx.filter fun e => p e.1).map (·.2)

theorem places_eq_filter_range (p : β → Bool) (xs : List β) :
    places p xs = (List.range xs.length).filter fun i => xs[i]?.any p := by
  have hread : ∀ e ∈ xs.zipIdx, p e.1 = xs[e.2]?.any p := fun e he => by
    rw [List.mem_zipIdx_iff_getElem?.1 he, Option.any_some]
  rw [places, List.filter_congr hread, List.range_eq_range', ← List.zipIdx_map_snd 0 xs,
    List.filter_map]
  rfl

theorem places_map (p : γ → Bool) (f : β → γ) (xs : List β) :
    places p (xs.map f) = places (p ∘ f) xs := by
  rw [places, List.zipIdx_map, List.filter_map, List.map_map]
  rfl

/-- Lists with a property at the same places. -/
theorem places_congr {p : β → Bool} {q : γ → Bool} {xs : List β} {ys : List γ}
    (h : xs.map p = ys.map q) : places p xs = places q ys := by
  have hplaces := congrArg (places id) h
  rwa [places_map, places_map] at hplaces

theorem mem_places {p : β → Bool} {xs : List β} {i : Nat} :
    i ∈ places p xs ↔ ∃ x, xs[i]? = some x ∧ p x = true := by
  rw [places_eq_filter_range, List.mem_filter, Option.any_eq_true, List.mem_range,
    and_iff_right_iff_imp]
  rintro ⟨x, hx, -⟩
  exact (List.getElem?_eq_some_iff.1 hx).1

theorem pairwise_places (p : β → Bool) (xs : List β) : (places p xs).Pairwise (· < ·) := by
  rw [places_eq_filter_range]
  exact List.pairwise_lt_range.filter _

/-- A property that implies another one holds at fewer places. -/
theorem sublist_places {β : Type} {p q : β → Bool} (h : ∀ x, p x = true → q x = true)
    (xs : List β) : (places p xs).Sublist (places q xs) := by
  rw [places_eq_filter_range, places_eq_filter_range]
  refine List.monotone_filter_right _ fun i hi => ?_
  obtain ⟨x, hx, hp⟩ := Option.any_eq_true _ _ |>.1 hi
  exact Option.any_eq_true _ _ |>.2 ⟨x, hx, h x hp⟩

/-- What is picked at the places of a property are the elements that have it. -/
theorem pickRows_places (p : β → Bool) (xs : List β) : pickRows (places p xs) xs = xs.filter p := by
  have hread : ∀ e ∈ xs.zipIdx.filter fun e => p e.1, xs[e.2]? = some e.1 := fun e he =>
    List.mem_zipIdx_iff_getElem?.1 (List.mem_filter.1 he).1
  rw [pickRows_eq_filterMap, places, List.filterMap_map]
  calc (xs.zipIdx.filter fun e => p e.1).filterMap ((xs[·]?) ∘ (·.2))
      = (xs.zipIdx.filter fun e => p e.1).filterMap (some ∘ (·.1)) :=
        List.filterMap_congr hread
    _ = (xs.zipIdx.filter fun e => p e.1).map (·.1) := by rw [List.filterMap_eq_map]
    _ = (xs.zipIdx.map (·.1)).filter p := by rw [List.filter_map]; rfl
    _ = xs.filter p := by rw [List.zipIdx_map_fst]

/-! ## Groups -/

variable [DecidableEq κ]

theorem rowsOf_eq_places (k : κ) (keys : List (Option κ)) :
    rowsOf k keys = places (· = some k) keys := rfl

theorem mem_rowsOf {k : κ} {keys : List (Option κ)} {row : Nat} :
    row ∈ rowsOf k keys ↔ keys[row]? = some (some k) := by
  rw [rowsOf_eq_places, mem_places]
  constructor
  · rintro ⟨key, hkey, heq⟩
    rw [hkey, of_decide_eq_true heq]
  · exact fun h => ⟨some k, h, decide_eq_true rfl⟩

theorem mem_rowsOf_map_some {k : κ} {keys : List κ} {row : Nat} :
    row ∈ rowsOf k (keys.map some) ↔ keys[row]? = some k := by
  rw [mem_rowsOf, List.getElem?_map, Option.map_eq_some_iff]
  simp

theorem pairwise_rowsOf (k : κ) (keys : List (Option κ)) : (rowsOf k keys).Pairwise (· < ·) := by
  rw [rowsOf_eq_places]
  exact pairwise_places _ keys

/-- The rows of a key have the key. -/
theorem pickRows_rowsOf_zip (k : κ) (keys : List κ) (xs : List β) :
    pickRows (rowsOf k (keys.map some)) (keys.zip xs) =
      (pickRows (rowsOf k (keys.map some)) xs).map (k, ·) := by
  rw [pickRows_eq_filterMap, pickRows_eq_filterMap, List.map_filterMap]
  refine List.filterMap_congr fun row hrow => ?_
  rw [mem_rowsOf_map_some] at hrow
  rw [List.zip, List.getElem?_zipWith, hrow]
  cases xs[row]? <;> rfl

/-- What is picked at the rows of a key are the elements that stand beside it. -/
theorem pickRows_rowsOf {keys : List κ} {xs : List β} (h : keys.length = xs.length) (k : κ) :
    pickRows (rowsOf k (keys.map some)) xs =
      ((keys.zip xs).filter fun e => e.1 = k).map (·.2) := by
  have hplaces : rowsOf k (keys.map some) = places (fun e => e.1 = k) (keys.zip xs) := by
    rw [rowsOf_eq_places]
    refine places_congr ?_
    calc (keys.map some).map (fun key => decide (key = some k))
        = keys.map fun key => decide (key = k) := by
          rw [List.map_map]
          exact List.map_congr_left fun key _ => by simp
      _ = (keys.zip xs).map fun e => decide (e.1 = k) := by
          rw [← List.map_fst_zip (Nat.le_of_eq h), List.map_map, List.map_fst_zip (Nat.le_of_eq h)]
          rfl
  have hpicked := congrArg (List.map (·.2)) (pickRows_rowsOf_zip k keys xs)
  rw [List.map_map] at hpicked
  rw [← pickRows_places, ← hplaces, hpicked]
  exact (List.map_id _).symm

theorem distinctSome_map_some (keys : List κ) : distinctSome (keys.map some) = distinct keys := by
  rw [distinctSome, List.filterMap_map]
  simp

/-- The place at which a key appears first. -/
def firstPlace (keys : List κ) (k : κ) : Nat := keys.findIdx (· = k)

theorem firstPlace_cons_self (k : κ) (keys : List κ) : firstPlace (k :: keys) k = 0 := by
  simp [firstPlace, List.findIdx_cons]

theorem firstPlace_cons_of_ne {j k : κ} (h : j ≠ k) (keys : List κ) :
    firstPlace (k :: keys) j = firstPlace keys j + 1 := by
  simp [firstPlace, List.findIdx_cons, h.symm]

/-- Keys are listed in the order in which they appear first. -/
theorem pairwise_distinct (keys : List κ) :
    (distinct keys).Pairwise fun j k => firstPlace keys j < firstPlace keys k := by
  induction keys with
  | nil => exact .nil
  | cons k keys ih =>
    refine List.pairwise_cons.2 ⟨fun j hj => ?_, ?_⟩
    · have hne : j ≠ k := by simpa using (List.mem_filter.1 hj).2
      rw [firstPlace_cons_self, firstPlace_cons_of_ne hne]
      omega
    · refine (ih.filter _).imp_of_mem fun {i j} hi hj hij => ?_
      have hi : i ≠ k := by simpa using (List.mem_filter.1 hi).2
      have hj : j ≠ k := by simpa using (List.mem_filter.1 hj).2
      rw [firstPlace_cons_of_ne hi, firstPlace_cons_of_ne hj]
      omega

theorem distinct_perm {keys keys' : List κ} (h : keys.Perm keys') :
    (distinct keys).Perm (distinct keys') := by
  refine (List.perm_ext_iff_of_nodup (nodup_distinct keys) (nodup_distinct keys')).2 fun k => ?_
  rw [mem_distinct, mem_distinct, h.mem_iff]

/-- Where keys are not confused, their images are listed in the same order. -/
theorem distinct_map {ι : Type} [DecidableEq ι] {f : κ → ι} (keys : List κ)
    (hf : ∀ j ∈ keys, ∀ k ∈ keys, f j = f k → j = k) :
    distinct (keys.map f) = (distinct keys).map f := by
  induction keys with
  | nil => rfl
  | cons k keys ih =>
    have hrest := ih fun i hi j hj => hf i (List.mem_cons_of_mem k hi) j (List.mem_cons_of_mem k hj)
    rw [List.map_cons, distinct, distinct, hrest, List.filter_map, List.map_cons]
    refine congrArg (fun rest => f k :: rest.map f) (List.filter_congr fun j hj => ?_)
    have hj := List.mem_cons_of_mem k ((mem_distinct keys).1 hj)
    exact decide_eq_decide.2 (not_congr ⟨hf j hj k List.mem_cons_self, congrArg f⟩)

/-- The rows of a list of keys, one key after the other. -/
def groupedRows (keys : List κ) : List Nat :=
  (distinct keys).flatMap fun k => rowsOf k (keys.map some)

theorem nodup_groupedRows (keys : List κ) : (groupedRows keys).Nodup := by
  refine List.nodup_flatMap.2 ⟨fun k _ => (pairwise_rowsOf k _).imp Nat.ne_of_lt, ?_⟩
  refine (nodup_distinct keys).imp fun {j k} hne row hj hk => hne ?_
  rw [mem_rowsOf_map_some] at hj hk
  rw [hj] at hk
  exact Option.some.inj hk

/-- Grouping loses no row and repeats none. -/
theorem groupedRows_perm (keys : List κ) : (groupedRows keys).Perm (List.range keys.length) := by
  refine (List.perm_ext_iff_of_nodup (nodup_groupedRows keys) List.nodup_range).2 fun row => ?_
  rw [groupedRows, List.mem_flatMap, List.mem_range]
  constructor
  · rintro ⟨k, -, hrow⟩
    exact (List.getElem?_eq_some_iff.1 (mem_rowsOf_map_some.1 hrow)).1
  · intro hrow
    have hread := List.getElem?_eq_getElem hrow
    exact ⟨keys[row], (mem_distinct keys).2 (List.getElem_mem hrow), mem_rowsOf_map_some.2 hread⟩

theorem lt_of_mem_groupedRows {keys : List κ} {row : Nat} (h : row ∈ groupedRows keys) :
    row < keys.length :=
  List.mem_range.1 ((groupedRows_perm keys).mem_iff.1 h)

/-- Groups come in the order in which their keys appear first, and rows with one key
in their own order. -/
theorem pairwise_groupedRows (keys : List κ) :
    (groupedRows keys).Pairwise fun i j => ∀ k l, keys[i]? = some k → keys[j]? = some l →
      firstPlace keys k < firstPlace keys l ∨ k = l ∧ i < j := by
  refine List.pairwise_flatMap.2 ⟨fun k _ => ?_, (pairwise_distinct keys).imp fun {a b} hab => ?_⟩
  · refine (pairwise_rowsOf k _).imp_of_mem fun {i j} hi hj hij a b ha hb => .inr ⟨?_, hij⟩
    rw [mem_rowsOf_map_some] at hi hj
    rw [hi] at ha
    rw [hj] at hb
    exact Option.some.inj (ha.symm.trans hb)
  · intro i hi j hj k l hk hl
    rw [mem_rowsOf_map_some] at hi hj
    rw [hi] at hk
    rw [hj] at hl
    rw [← Option.some.inj hk, ← Option.some.inj hl]
    exact .inl hab

end LatentFactors
