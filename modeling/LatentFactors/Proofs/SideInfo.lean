import LatentFactors.SideInfo
import LatentFactors.Proofs.Frame
import LatentFactors.Proofs.Id

/-!
# The keys of side information

The rows of a frame have keys, which stand in one column or in several ones
(`Frame.KeyedBy`).  In such a frame names tell keys apart
(`Frame.KeyedBy.eq_of_names_eq`), because every column spells a name in one way.

`Frame.sideVectors` gives one vector to every complete key, and lists the keys once, in
ascending order (`Frame.KeyedBy.lists_of_sideVectors`).  It can do so exactly when every
single vector can be made (`Frame.KeyedBy.exists_sideVectors_iff`).
-/

namespace LatentFactors

namespace RowKey

/-- Whether no part of a key is missing. -/
def isComplete (key : RowKey) : Bool := key.ids.all Id.isPresent

/-- The names in a key. -/
def names (key : RowKey) : List Name := key.ids.map (·.name)

/-- A key, if no part of it is missing. -/
def whole? (key : RowKey) : Option RowKey := if key.isComplete then some key else none

theorem whole?_eq_some_iff {key k : RowKey} :
    key.whole? = some k ↔ key = k ∧ k.isComplete = true := by
  rw [whole?]
  split
  · next h =>
    rw [Option.some.injEq]
    exact ⟨fun heq => ⟨heq, heq ▸ h⟩, fun heq => heq.1⟩
  · next h => exact iff_of_false nofun fun heq => h (heq.1 ▸ heq.2)

end RowKey

/-- The complete ones of some keys are listed once, in ascending order. -/
structure ListsKeys (keys listed : List RowKey) : Prop where
  mem_iff (k : RowKey) : k ∈ listed ↔ k ∈ keys ∧ k.isComplete = true
  distinct : listed.Pairwise fun j k => j.names ≠ k.names
  ascending : listed.Pairwise fun j k => j.ids.map Id.position ≤ k.ids.map Id.position

/-- The complete ones of some keys, in the order in which they are listed. -/
def sortedKeys (keys : List RowKey) : List RowKey :=
  (distinctSome (keys.map RowKey.whole?)).mergeSort fun a b => Id.listAtMost a.ids b.ids

theorem listsKeys_sortedKeys {keys : List RowKey}
    (h : ∀ j ∈ keys, ∀ k ∈ keys, j.names = k.names → j = k) : ListsKeys keys (sortedKeys keys) := by
  have hmem (k : RowKey) : k ∈ sortedKeys keys ↔ k ∈ keys ∧ k.isComplete = true := by
    rw [sortedKeys, List.mem_mergeSort, distinctSome, mem_distinct, List.mem_filterMap]
    simp only [List.mem_map, id_eq]
    constructor
    · rintro ⟨_, ⟨key, hkey, rfl⟩, hwhole⟩
      obtain ⟨rfl, hcomplete⟩ := RowKey.whole?_eq_some_iff.1 hwhole
      exact ⟨hkey, hcomplete⟩
    · rintro ⟨hk, hcomplete⟩
      exact ⟨_, ⟨k, hk, rfl⟩, RowKey.whole?_eq_some_iff.2 ⟨rfl, hcomplete⟩⟩
  have hnodup : (sortedKeys keys).Nodup :=
    (List.mergeSort_perm _ _).nodup_iff.2 (nodup_distinct _)
  refine ⟨hmem, hnodup.imp_of_mem fun {j k} hj hk hne heq => ?_, ?_⟩
  · exact hne (h j ((hmem j).1 hj).1 k ((hmem k).1 hk).1 heq)
  · have hsorted := List.pairwise_mergeSort (fun a b c => Id.listAtMost_trans a.ids b.ids c.ids)
      (fun a b => Id.listAtMost_total a.ids b.ids) (distinctSome (keys.map RowKey.whole?))
    exact hsorted.imp fun h => (Id.listAtMost_iff _ _).1 h

namespace Frame

variable {α : Type} [Scalar α]

/-- The keys of the rows, as they stand in some columns. -/
def ReadsKeys (f : Frame α) : KeyColumns → List RowKey → Prop
  | .one name, keys => ∃ ids, f.ids name = .ok ids ∧ keys = ids.map .single
  | .several names, keys => names ≠ [] ∧ ∃ columns, names.mapM f.ids = .ok columns ∧
      keys = (List.range f.size).map fun row => .parts (columns.filterMap (·[row]?))

/-- A frame with columns of one length and a key in every row. -/
structure KeyedBy (f : Frame α) (key : KeyColumns) (keys : List RowKey) : Prop where
  rectangular : f.Rectangular
  reads : f.ReadsKeys key keys

theorem eq_of_name_eq {f : Frame α} {name : String} {ids : List Id} (h : f.ids name = .ok ids)
    {a b : Id} (ha : a ∈ ids) (hb : b ∈ ids) (hname : a.name = b.name) : a = b := by
  obtain ⟨c, -, hids⟩ := Outcome.bind_eq_ok.1 h
  cases hids
  exact Column.eq_of_name_eq ha hb hname

/-- Where names tell apart what stands in every column, they tell rows apart. -/
private theorem filterMap_eq_of_names_aux {columns : List (List Id)} {n i j : Nat}
    (hi : i < n) (hj : j < n) (hlength : ∀ ids ∈ columns, ids.length = n)
    (hnames : ∀ ids ∈ columns, ∀ a ∈ ids, ∀ b ∈ ids, a.name = b.name → a = b)
    (h : (columns.filterMap (·[i]?)).map (·.name) = (columns.filterMap (·[j]?)).map (·.name)) :
    columns.filterMap (·[i]?) = columns.filterMap (·[j]?) := by
  induction columns with
  | nil => rfl
  | cons ids columns ih =>
    have hids := hlength ids List.mem_cons_self
    have hread {row : Nat} (hrow : row < ids.length) :
        (ids :: columns).filterMap (·[row]?) = ids[row] :: columns.filterMap (·[row]?) :=
      List.filterMap_cons_some (List.getElem?_eq_getElem hrow)
    rw [hread (hids ▸ hi), hread (hids ▸ hj)] at h ⊢
    obtain ⟨hhead, htail⟩ := List.cons.inj h
    have hsame := hnames ids List.mem_cons_self _ (List.getElem_mem _) _ (List.getElem_mem _) hhead
    rw [hsame, ih (fun ids hids => hlength ids (List.mem_cons_of_mem _ hids))
      (fun ids hids => hnames ids (List.mem_cons_of_mem _ hids)) htail]

namespace KeyedBy

variable {f : Frame α} {key : KeyColumns} {keys : List RowKey}

theorem length_eq (h : f.KeyedBy key keys) : keys.length = f.size := by
  cases key with
  | one name =>
    obtain ⟨ids, hids, rfl⟩ := h.reads
    rw [List.length_map, h.rectangular.length_ids hids]
  | several names =>
    obtain ⟨-, columns, -, rfl⟩ := h.reads
    rw [List.length_map, List.length_range]

/-- Keys with the same names are one key. -/
theorem eq_of_names_eq (h : f.KeyedBy key keys) {j k : RowKey} (hj : j ∈ keys) (hk : k ∈ keys)
    (hnames : j.names = k.names) : j = k := by
  cases key with
  | one name =>
    obtain ⟨ids, hids, rfl⟩ := h.reads
    obtain ⟨a, ha, rfl⟩ := List.mem_map.1 hj
    obtain ⟨b, hb, rfl⟩ := List.mem_map.1 hk
    exact congrArg RowKey.single (eq_of_name_eq hids ha hb (List.cons.inj hnames).1)
  | several names =>
    obtain ⟨-, columns, hcolumns, rfl⟩ := h.reads
    obtain ⟨row, hrow, rfl⟩ := List.mem_map.1 hj
    obtain ⟨row', hrow', rfl⟩ := List.mem_map.1 hk
    have hread (c : List Id) (hc : c ∈ columns) : ∃ name ∈ names, f.ids name = .ok c :=
      Outcome.exists_left_of_forall₂ (Outcome.mapM_eq_ok_iff.1 hcolumns) hc
    refine congrArg RowKey.parts (filterMap_eq_of_names_aux (List.mem_range.1 hrow)
      (List.mem_range.1 hrow') (fun c hc => ?_) (fun c hc a ha b hb => ?_) hnames)
    · obtain ⟨name, -, hname⟩ := hread c hc
      exact h.rectangular.length_ids hname
    · obtain ⟨name, -, hname⟩ := hread c hc
      exact eq_of_name_eq hname ha hb

theorem rowKeys_eq (h : f.KeyedBy key keys) :
    f.rowKeys key = .ok (keys.map RowKey.whole?) := by
  cases key with
  | one name =>
    obtain ⟨ids, hids, rfl⟩ := h.reads
    rw [rowKeys, hids, Outcome.bind_ok, List.map_map]
    refine congrArg Except.ok (List.map_congr_left fun id _ => ?_)
    simp [RowKey.whole?, RowKey.isComplete, RowKey.ids]
  | several names =>
    obtain ⟨hne, columns, hcolumns, rfl⟩ := h.reads
    have hcontains : names.all f.columns.contains = true := by
      refine List.all_eq_true.2 fun name hname => ?_
      obtain ⟨ids, -, hids⟩ := Outcome.exists_of_mem_mapM hcolumns hname
      obtain ⟨c, hc, -⟩ := Outcome.bind_eq_ok.1 hids
      rw [Table.contains, column_eq_ok_iff.1 hc]
      rfl
    rw [rowKeys, if_neg (by simpa using hne), hcontains, Bool.not_true, Bool.and_false,
      if_neg Bool.false_ne_true, columnKeys, hcolumns, Outcome.bind_ok, List.map_map]
    exact congrArg Except.ok (List.map_map ..)

theorem listsKeys_sortedKeys (h : f.KeyedBy key keys) : ListsKeys keys (sortedKeys keys) :=
  LatentFactors.listsKeys_sortedKeys fun _ hj _ hk => h.eq_of_names_eq hj hk

theorem sideVectors_eq (h : f.KeyedBy key keys) (size : Option Int) :
    f.sideVectors key size = (do
      let n ← f.sideSize size
      (sortedKeys keys).mapM fun k => do
        return (k, ← f.sideVector n (rowsOf k (keys.map RowKey.whole?)))) := by
  rw [sideVectors, h.rowKeys_eq]
  rfl

/-- The vectors can be made exactly when each of them can. -/
theorem exists_sideVectors_iff (h : f.KeyedBy key keys) {size : Option Int} {n : Int}
    (hsize : f.sideSize size = .ok n) :
    (∃ vectors, f.sideVectors key size = .ok vectors) ↔
      ∀ k ∈ keys, k.isComplete = true →
        ∃ v, f.sideVector n (rowsOf k (keys.map RowKey.whole?)) = .ok v := by
  rw [h.sideVectors_eq, hsize, Outcome.bind_ok, Outcome.exists_mapM_ok_iff]
  constructor
  · intro hpairs k hk hcomplete
    obtain ⟨e, he⟩ := hpairs k ((h.listsKeys_sortedKeys.mem_iff k).2 ⟨hk, hcomplete⟩)
    obtain ⟨v, hv, -⟩ := Outcome.bind_eq_ok.1 he
    exact ⟨v, hv⟩
  · intro hv k hk
    obtain ⟨hkey, hcomplete⟩ := (h.listsKeys_sortedKeys.mem_iff k).1 hk
    obtain ⟨v, hv⟩ := hv k hkey hcomplete
    exact ⟨(k, v), Outcome.bind_eq_ok.2 ⟨v, hv, rfl⟩⟩

/-- Every complete key is listed with the vector of its rows. -/
theorem lists_of_sideVectors (h : f.KeyedBy key keys) {size : Option Int}
    {vectors : List (RowKey × Vec α)} (hvectors : f.sideVectors key size = .ok vectors) :
    ListsKeys keys (vectors.map (·.1)) ∧ ∃ n, f.sideSize size = .ok n ∧
      ∀ e ∈ vectors, f.sideVector n (rowsOf e.1 (keys.map RowKey.whole?)) = .ok e.2 := by
  rw [h.sideVectors_eq] at hvectors
  obtain ⟨n, hn, hvectors⟩ := Outcome.bind_eq_ok.1 hvectors
  have hvector : ∀ k e, (do
      return (k, ← f.sideVector n (rowsOf k (keys.map RowKey.whole?)))) = Except.ok e →
      e.1 = k ∧ f.sideVector n (rowsOf k (keys.map RowKey.whole?)) = .ok e.2 := by
    intro k e he
    obtain ⟨v, hv, he⟩ := Outcome.bind_eq_ok.1 he
    cases he
    exact ⟨rfl, hv⟩
  have hlisted : vectors.map (·.1) = sortedKeys keys :=
    Outcome.map_of_mapM hvectors fun k e he => (hvector k e he).1
  refine ⟨hlisted ▸ h.listsKeys_sortedKeys, n, hn, Outcome.forall_of_mapM hvectors ?_⟩
  intro k _ e he
  obtain ⟨rfl, hv⟩ := hvector k e he
  exact hv

end KeyedBy

end Frame

end LatentFactors
