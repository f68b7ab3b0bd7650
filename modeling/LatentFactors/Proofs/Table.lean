import LatentFactors.Table

/-!
# Finding entries of tables

Two spellings of a key find the same entry (`Table.find?_congr`), and where no
key is listed twice every entry is found (`Table.findEntry_of_mem`).  Inserting
puts a new key behind the known ones (`Table.keys_insert`), so a table that is made of
a list has every key once, with its last value (`Table.find?_ofList`).

A part of a table, `Table.restrict`, holds the entries of some keys, and inserting
in the table inserts in the part or leaves it (`Table.restrict_insert`).  A table
can be given other keys: `Table.relabel` changes every key, and the value along
with it, and what was found under a key is then found under the new one
(`Table.find?_relabel`), also after an insertion (`Table.relabel_insert`).
-/

namespace LatentFactors.Table

variable {κ ν : Type}

section

variable [BEq κ] [EquivBEq κ]

/-- Two spellings of a key find the same. -/
theorem find?_congr (t : Table κ ν) {k j : κ} (h : (k == j) = true) : t.find? k = t.find? j := by
  obtain ⟨entries⟩ := t
  show findEntry k entries = findEntry j entries
  induction entries with
  | nil => rfl
  | cons e rest ih => rw [findEntry, findEntry, BEq.congr_right h, ih]

/-- Where no key is listed twice, every entry is found under its key. -/
theorem findEntry_of_mem {entries : List (κ × ν)}
    (h : entries.Pairwise fun a b => (a.1 == b.1) = false) {e : κ × ν} (he : e ∈ entries) :
    findEntry e.1 entries = some e.2 := by
  induction entries with
  | nil => cases he
  | cons a rest ih =>
    obtain ⟨hfirst, hrest⟩ := List.pairwise_cons.1 h
    rw [findEntry]
    rcases List.mem_cons.1 he with rfl | he
    · rw [if_pos BEq.rfl]
    · rw [if_neg (Bool.eq_false_iff.1 (hfirst e he))]
      exact ih hrest he

end

/-! ## Keys in order -/

section

variable [BEq κ]

/-- A table contains the keys that it lists, in any spelling. -/
theorem contains_iff {t : Table κ ν} {k : κ} :
    t.contains k = true ↔ ∃ j ∈ t.keys, (j == k) = true := by
  rw [contains, find?, Option.isSome_iff_ne_none, ne_eq, findEntry_eq_none_iff]
  simp [keys]

private theorem map_insertEntry_aux {k : κ} {entries : List (κ × ν)}
    (h : ∃ e ∈ entries, (e.1 == k) = true) (v : ν) :
    (insertEntry k v entries).map (·.1) = entries.map (·.1) := by
  induction entries with
  | nil => simp at h
  | cons e rest ih =>
    rw [insertEntry]
    split
    · rfl
    · next hk =>
      obtain ⟨a, ha, hsame⟩ := h
      rcases List.mem_cons.1 ha with rfl | ha
      · exact absurd hsame hk
      · rw [List.map_cons, ih ⟨a, ha, hsame⟩, List.map_cons]

/-- A new key comes last, and the known ones keep their places. -/
theorem keys_insert (t : Table κ ν) (k : κ) (v : ν) :
    (t.insert k v).keys = if t.contains k = true then t.keys else t.keys ++ [k] := by
  split
  · next h =>
    obtain ⟨j, hj, hsame⟩ := contains_iff.1 h
    obtain ⟨e, he, rfl⟩ := List.mem_map.1 hj
    exact map_insertEntry_aux ⟨e, he, hsame⟩ v
  · next h =>
    have hnone : t.find? k = none := Option.not_isSome_iff_eq_none.1 h
    rw [keys, entries_insert_of_find?_eq_none v hnone, List.map_append]
    rfl

/-- A table that goes on from another one: the keys are still there in their
places, and no key is listed twice if none was. -/
structure GoesOn (t u : Table κ ν) : Prop where
  keys : t.keys <+: u.keys
  distinct (h : t.keys.Pairwise fun a b => (a == b) = false) :
    u.keys.Pairwise fun a b => (a == b) = false

theorem GoesOn.refl (t : Table κ ν) : GoesOn t t := ⟨List.prefix_rfl, fun h => h⟩

theorem GoesOn.trans {t u w : Table κ ν} (h : GoesOn t u) (h' : GoesOn u w) : GoesOn t w :=
  ⟨h.keys.trans h'.keys, fun hdistinct => h'.distinct (h.distinct hdistinct)⟩

/-- A table goes on with entries for keys that it does not have, each once. -/
theorem goesOn_of_append {t u : Table κ ν} {added : List (κ × ν)}
    (h : u.entries = t.entries ++ added) (hnew : ∀ e ∈ added, t.find? e.1 = none)
    (hdistinct : added.Pairwise fun a b => (a.1 == b.1) = false) : GoesOn t u := by
  have hkeys : u.keys = t.keys ++ added.map (·.1) := by
    rw [keys, keys, h, List.map_append]
  refine ⟨⟨_, hkeys.symm⟩, fun ht => ?_⟩
  rw [hkeys, List.pairwise_append]
  refine ⟨ht, List.pairwise_map.2 hdistinct, fun a ha b hb => ?_⟩
  obtain ⟨e, he, rfl⟩ := List.mem_map.1 ha
  obtain ⟨e', he', rfl⟩ := List.mem_map.1 hb
  exact findEntry_eq_none_iff.1 (hnew e' he') e he

theorem goesOn_insert (t : Table κ ν) (k : κ) (v : ν) : GoesOn t (t.insert k v) := by
  cases hfind : t.find? k with
  | some old =>
    have hkeys : (t.insert k v).keys = t.keys := by
      rw [keys_insert, contains, hfind]
      rfl
    exact ⟨hkeys ▸ List.prefix_rfl, fun h => hkeys ▸ h⟩
  | none =>
    refine goesOn_of_append (entries_insert_of_find?_eq_none v hfind) (fun e he => ?_)
      (List.pairwise_singleton ..)
    rw [List.mem_singleton.1 he]
    exact hfind

theorem goesOn_foldl_insert (entries : List (κ × ν)) (t : Table κ ν) :
    GoesOn t (entries.foldl (fun t e => t.insert e.1 e.2) t) := by
  induction entries generalizing t with
  | nil => exact .refl t
  | cons e rest ih => exact (goesOn_insert t e.1 e.2).trans (ih _)

/-- A table that is made of a list has no key twice. -/
theorem distinct_ofList (entries : List (κ × ν)) :
    (ofList entries).entries.Pairwise fun a b => (a.1 == b.1) = false :=
  List.pairwise_map.1 ((goesOn_foldl_insert entries empty).distinct .nil)

end

section

variable [BEq κ] [EquivBEq κ]

private theorem find?_foldl_insert_aux (entries : List (κ × ν)) (t : Table κ ν) (k : κ) :
    (entries.foldl (fun t e => t.insert e.1 e.2) t).find? k =
      (((entries.filter (·.1 == k)).getLast?).map (·.2)).or (t.find? k) := by
  induction entries generalizing t with
  | nil => rfl
  | cons e rest ih =>
    rw [List.foldl_cons, ih, find?_insert, List.filter_cons]
    by_cases hk : (e.1 == k) = true
    · rw [if_pos hk, if_pos hk, List.getLast?_cons]
      cases (rest.filter (·.1 == k)).getLast? <;> rfl
    · rw [if_neg hk, if_neg hk]

/-- Where no key is listed twice, the last value of a key is the one that is found. -/
theorem getLast?_filter_eq_findEntry {entries : List (κ × ν)}
    (h : entries.Pairwise fun a b => (a.1 == b.1) = false) (k : κ) :
    ((entries.filter (·.1 == k)).getLast?).map (·.2) = findEntry k entries := by
  induction entries with
  | nil => rfl
  | cons e rest ih =>
    obtain ⟨hfirst, hrest⟩ := List.pairwise_cons.1 h
    rw [List.filter_cons, findEntry]
    by_cases hk : (e.1 == k) = true
    · have hnone : rest.filter (·.1 == k) = [] := List.filter_eq_nil_iff.2 fun a ha hak =>
        Bool.eq_false_iff.1 (hfirst a ha) (BEq.trans hk (BEq.symm hak))
      rw [if_pos hk, if_pos hk, hnone]
      rfl
    · rw [if_neg hk, if_neg hk, ih hrest]

/-- A table into which another one is inserted finds what that one has, or else what it
found before. -/
theorem find?_foldl_insert {entries : List (κ × ν)}
    (h : entries.Pairwise fun a b => (a.1 == b.1) = false) (t : Table κ ν) (k : κ) :
    (entries.foldl (fun t e => t.insert e.1 e.2) t).find? k =
      (findEntry k entries).or (t.find? k) := by
  rw [find?_foldl_insert_aux, getLast?_filter_eq_findEntry h]

/-- A table that is made of a list finds the last value of a key. -/
theorem find?_ofList (entries : List (κ × ν)) (k : κ) :
    (ofList entries).find? k = ((entries.filter (·.1 == k)).getLast?).map (·.2) := by
  rw [ofList, find?_foldl_insert_aux]
  exact Option.or_none

end

/-- The entries of a table that is made of a list are what it finds. -/
theorem mem_ofList_iff [BEq κ] [LawfulBEq κ] {entries : List (κ × ν)} {k : κ} {v : ν} :
    (k, v) ∈ (ofList entries).entries ↔ (ofList entries).find? k = some v := by
  refine ⟨findEntry_of_mem (distinct_ofList entries), fun h => ?_⟩
  obtain ⟨e, he, hk, rfl⟩ := exists_of_findEntry_eq_some h
  rw [← LawfulBEq.eq_of_beq hk]
  exact he

/-! ## Parts of a table -/

/-- The entries with some keys. -/
def restrict (p : κ → Bool) (t : Table κ ν) : Table κ ν := ⟨t.entries.filter (p ·.1)⟩

theorem keys_restrict (p : κ → Bool) (t : Table κ ν) : (t.restrict p).keys = t.keys.filter p := by
  rw [keys, keys, restrict, List.filter_map]
  rfl

section

variable [BEq κ] {p : κ → Bool}

/-- In the part of a table every key of the part finds what it found. -/
theorem find?_restrict (hp : ∀ k j : κ, (k == j) = true → p k = p j) (t : Table κ ν) {k : κ}
    (hk : p k = true) : (t.restrict p).find? k = t.find? k := by
  obtain ⟨entries⟩ := t
  show findEntry k (entries.filter (p ·.1)) = findEntry k entries
  induction entries with
  | nil => rfl
  | cons e rest ih =>
    rw [List.filter_cons]
    by_cases he : p e.1 = true
    · rw [if_pos he, findEntry, findEntry, ih]
    · have hne : ¬ (e.1 == k) = true := fun hsame => he ((hp _ _ hsame).trans hk)
      rw [if_neg he, findEntry, if_neg hne, ih]

private theorem filter_insertEntry_aux (hp : ∀ k j : κ, (k == j) = true → p k = p j) (k : κ)
    (v : ν) (entries : List (κ × ν)) :
    (insertEntry k v entries).filter (p ·.1) =
      if p k = true then insertEntry k v (entries.filter (p ·.1))
      else entries.filter (p ·.1) := by
  induction entries with
  | nil => by_cases hk : p k = true <;> simp [insertEntry, hk]
  | cons e rest ih =>
    by_cases hsame : (e.1 == k) = true
    · -- The key of the entry is kept, and it belongs to the part if the new one does.
      rw [insertEntry, if_pos hsame, List.filter_cons, List.filter_cons, hp _ _ hsame]
      by_cases hk : p k = true
      · rw [if_pos hk, if_pos hk, if_pos hk, insertEntry, if_pos hsame]
      · rw [if_neg hk, if_neg hk, if_neg hk]
    · rw [insertEntry, if_neg hsame, List.filter_cons, List.filter_cons, ih]
      by_cases he : p e.1 = true
      · rw [if_pos he, if_pos he, insertEntry, if_neg hsame]
        split <;> rfl
      · rw [if_neg he, if_neg he]

/-- What is inserted in a table is inserted in the part that its key belongs
to. -/
theorem restrict_insert (hp : ∀ k j : κ, (k == j) = true → p k = p j) (t : Table κ ν) (k : κ)
    (v : ν) :
    (t.insert k v).restrict p =
      if p k = true then (t.restrict p).insert k v else t.restrict p := by
  rw [restrict, insert, filter_insertEntry_aux hp]
  split <;> rfl

end

/-! ## Other keys -/

/-- The table with other keys, and with values that may depend on the key. -/
def relabel (key : κ → κ) (value : κ → ν → ν) (t : Table κ ν) : Table κ ν :=
  ⟨t.entries.map fun e => (key e.1, value e.1 e.2)⟩

theorem relabel_relabel {key : κ → κ} {value : κ → ν → ν} (hkey : ∀ k, key (key k) = k)
    (hvalue : ∀ k v, value (key k) (value k v) = v) (t : Table κ ν) :
    (t.relabel key value).relabel key value = t := by
  obtain ⟨entries⟩ := t
  refine congrArg Table.mk ?_
  rw [relabel, List.map_map]
  refine (List.map_congr_left fun e _ => ?_).trans (List.map_id _)
  exact Prod.ext (hkey e.1) (hvalue e.1 e.2)

/-- Where the keys are told apart as before, a new key finds the new value. -/
theorem find?_relabel [BEq κ] {key : κ → κ} {value : κ → ν → ν}
    (hkey : ∀ k j, (key k == key j) = (k == j))
    (hvalue : ∀ k j, (k == j) = true → value k = value j)
    (t : Table κ ν) (j : κ) : (t.relabel key value).find? (key j) = (t.find? j).map (value j) := by
  obtain ⟨entries⟩ := t
  show findEntry (key j) (entries.map fun e => (key e.1, value e.1 e.2)) =
    (findEntry j entries).map (value j)
  induction entries with
  | nil => rfl
  | cons e rest ih =>
    rw [List.map_cons, findEntry, findEntry, hkey, ih]
    split
    · next hsame => rw [hvalue e.1 j hsame, Option.map_some]
    · rfl

/-- What is inserted is then inserted under its new key, with its new value. -/
theorem relabel_insert [BEq κ] {key : κ → κ} {value : κ → ν → ν}
    (hkey : ∀ k j, (key k == key j) = (k == j))
    (hvalue : ∀ k j, (k == j) = true → value k = value j)
    (t : Table κ ν) (k : κ) (v : ν) :
    (t.insert k v).relabel key value = (t.relabel key value).insert (key k) (value k v) := by
  obtain ⟨entries⟩ := t
  refine congrArg Table.mk ?_
  show (insertEntry k v entries).map (fun e => (key e.1, value e.1 e.2)) =
    insertEntry (key k) (value k v) (entries.map fun e => (key e.1, value e.1 e.2))
  induction entries with
  | nil => rfl
  | cons e rest ih =>
    rw [insertEntry, List.map_cons, insertEntry, hkey]
    split
    · next hsame => rw [List.map_cons, hvalue e.1 k hsame]
    · rw [List.map_cons, ih]

end LatentFactors.Table
