/-!
# Tables that remember the order of insertion

A `Table` is a list of keys with values.  `insert` replaces the value of a
known key in its place and puts a new key at the end, so the keys stay in the
order of their first insertion.  A key that is erased and inserted again
moves to the end.

Keys are compared by an equivalence: several keys may name the same entry,
and an entry is listed under the key that it was first inserted with.

The lemmas say what `find?` reads after each operation.
-/

namespace LatentFactors

/-- Keys with values, in the order of insertion. -/
structure Table (κ ν : Type) where
  entries : List (κ × ν)
  deriving Repr

namespace Table

variable {κ ν : Type}

/-- The table without keys. -/
def empty : Table κ ν := ⟨[]⟩

/-- The keys, in the order of insertion. -/
def keys (t : Table κ ν) : List κ := t.entries.map (·.1)

variable [BEq κ]

/-- Replaces the value of the first entry with a key, or adds an entry. -/
def insertEntry (k : κ) (v : ν) : List (κ × ν) → List (κ × ν)
  | [] => [(k, v)]
  | e :: rest => if e.1 == k then (e.1, v) :: rest else e :: insertEntry k v rest

/-- The value in the first entry with a key. -/
def findEntry (k : κ) : List (κ × ν) → Option ν
  | [] => none
  | e :: rest => if e.1 == k then some e.2 else findEntry k rest

/-- The value of a key. -/
def find? (t : Table κ ν) (k : κ) : Option ν := findEntry k t.entries

/-- Whether a key has a value. -/
def contains (t : Table κ ν) (k : κ) : Bool := (t.find? k).isSome

/-- Gives a key a value; a known key keeps its place. -/
def insert (t : Table κ ν) (k : κ) (v : ν) : Table κ ν := ⟨insertEntry k v t.entries⟩

/-- Removes a key. -/
def erase (t : Table κ ν) (k : κ) : Table κ ν := ⟨t.entries.filter (!·.1 == k)⟩

/-- Inserts the entries of a list one after the other: a repeated key keeps
its first place and takes its last value. -/
def ofList (entries : List (κ × ν)) : Table κ ν :=
  entries.foldl (fun t e => t.insert e.1 e.2) empty

/-! ## Keys that are not there -/

/-- Nothing is read exactly when no entry has the key. -/
theorem findEntry_eq_none_iff {k : κ} {entries : List (κ × ν)} :
    findEntry k entries = none ↔ ∀ e ∈ entries, (e.1 == k) = false := by
  induction entries with
  | nil => simp [findEntry]
  | cons e rest ih =>
    by_cases hk : e.1 == k <;> simp [findEntry, hk, ih]

/-- What is read is the value of an entry with the key. -/
theorem exists_of_findEntry_eq_some {k : κ} {v : ν} {entries : List (κ × ν)}
    (h : findEntry k entries = some v) : ∃ e ∈ entries, (e.1 == k) = true ∧ e.2 = v := by
  induction entries with
  | nil => cases h
  | cons e rest ih =>
    rw [findEntry] at h
    split at h
    · next hk =>
      injection h with h
      exact ⟨e, List.mem_cons_self, hk, h⟩
    · obtain ⟨a, ha, hrest⟩ := ih h
      exact ⟨a, List.mem_cons_of_mem e ha, hrest⟩

/-- Entries at the end are read where those before have nothing. -/
theorem findEntry_append (k : κ) (entries more : List (κ × ν)) :
    findEntry k (entries ++ more) = (findEntry k entries).or (findEntry k more) := by
  induction entries with
  | nil => simp [findEntry]
  | cons e rest ih =>
    by_cases hk : e.1 == k <;> simp [findEntry, hk, ih]

/-- A key that is not there is added at the end. -/
theorem entries_insert_of_find?_eq_none {t : Table κ ν} {k : κ} (v : ν)
    (h : t.find? k = none) : (t.insert k v).entries = t.entries ++ [(k, v)] := by
  obtain ⟨entries⟩ := t
  show insertEntry k v entries = entries ++ [(k, v)]
  replace h : findEntry k entries = none := h
  induction entries with
  | nil => rfl
  | cons e rest ih =>
    have hk := findEntry_eq_none_iff.1 h
    have hrest : findEntry k rest = none :=
      findEntry_eq_none_iff.2 fun a ha => hk a (List.mem_cons_of_mem e ha)
    rw [insertEntry, hk e List.mem_cons_self, ih hrest]
    rfl

/-! ## What is read after an operation -/

variable [EquivBEq κ]

theorem findEntry_insertEntry (k j : κ) (v : ν) (entries : List (κ × ν)) :
    findEntry j (insertEntry k v entries) =
      if k == j then some v else findEntry j entries := by
  induction entries with
  | nil => simp [insertEntry, findEntry]
  | cons e rest ih =>
    by_cases hk : e.1 == k
    · have hj : (e.1 == j) = (k == j) := BEq.congr_left hk
      by_cases h : k == j <;> simp [insertEntry, findEntry, hk, hj, h]
    · rw [insertEntry, if_neg hk, findEntry, findEntry, ih]
      by_cases hj : e.1 == j
      · have hne : (k == j) = false := by
          rw [← Bool.not_eq_true]
          exact fun h => hk (BEq.trans hj (BEq.symm h))
        simp [hj, hne]
      · simp [hj]

/-- An inserted key reads its new value, every other key what it read before. -/
theorem find?_insert (t : Table κ ν) (k j : κ) (v : ν) :
    (t.insert k v).find? j = if k == j then some v else t.find? j :=
  findEntry_insertEntry k j v t.entries

theorem findEntry_filter_not_beq (k j : κ) (entries : List (κ × ν)) :
    findEntry j (entries.filter (!·.1 == k)) =
      if k == j then none else findEntry j entries := by
  induction entries with
  | nil => simp [findEntry]
  | cons e rest ih =>
    by_cases hk : e.1 == k
    · have hj : (e.1 == j) = (k == j) := BEq.congr_left hk
      by_cases h : k == j <;> simp [findEntry, hk, hj, h, ih]
    · rw [List.filter_cons_of_pos (by simp [hk]), findEntry, ih, findEntry]
      by_cases hj : e.1 == j
      · have hne : (k == j) = false := by
          rw [← Bool.not_eq_true]
          exact fun h => hk (BEq.trans hj (BEq.symm h))
        simp [hj, hne]
      · simp [hj]

/-- An erased key reads nothing, every other key what it read before. -/
theorem find?_erase (t : Table κ ν) (k j : κ) :
    (t.erase k).find? j = if k == j then none else t.find? j :=
  findEntry_filter_not_beq k j t.entries

end Table

end LatentFactors
