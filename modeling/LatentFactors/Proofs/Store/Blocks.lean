import LatentFactors.Proofs.Store.Equivalent
import LatentFactors.Proofs.Store.Growth

/-!
# Blocks of draws

Every family of factors starts from a block of draws of its own: one draw for every
entry of every vector, vector after vector, those that are overwritten included
(`Store.block`).  The blocks lie one behind the other, in the order in which the
families were created, behind the draw for the first threshold if there is one.

* `Store.Balanced` says that as many draws were taken as this needs.  A new store is
  balanced (`Store.balanced_create`).
* `Store.Deals` says that new families of factors got the next blocks, and reading a
  family goes along it (`Store.family_deals`).
-/

namespace LatentFactors

variable {α : Type}

/-- An entry that is found is found as well behind the same entries. -/
theorem Table.find?_of_prefix {κ ν : Type} [BEq κ] {t u : Table κ ν}
    (h : t.entries <+: u.entries) {k : κ} {v : ν} (hfind : t.find? k = some v) :
    u.find? k = some v := by
  obtain ⟨added, hadded⟩ := h
  rw [find?] at hfind ⊢
  rw [← hadded, findEntry_append, hfind]
  rfl

/-- The draws that a family of factors starts from, if each vector has three reserved
entries and `n` others. -/
def Shape.blockSize (shape : Shape α) (n : Nat) : Nat := shape.vectorCount * (n + 3)

/-- The draws that the first thresholds need. -/
def Shape.cutDraws (shape : Shape α) : Nat :=
  if shape.ordinal = true ∧ 0 < shape.cutCount then 1 else 0

/-- Ordered classes need one draw, and others need none. -/
theorem Shape.cutDraws_of_admits {shape : Shape α} {h : Hypothesis} (hadmits : shape.Admits h) :
    shape.cutDraws = if shape.ordinal = true then 1 else 0 := by
  rw [cutDraws]
  cases h with
  | ols | poisson | logistic | softmax => simp [hadmits.1]
  | ordinal =>
    obtain ⟨hordinal, hclasses⟩ := hadmits
    have hcuts : 0 < shape.cutCount := by
      rw [cutCount]
      omega
    rw [if_pos ⟨hordinal, hcuts⟩, if_pos hordinal]

namespace Store

/-! ## Users and items -/

/-- Every family of factors belongs to a user or to an item. -/
theorem length_keys_factors (s : Store α) :
    s.factors.keys.length =
      (s.owners .userFactors).length + (s.owners .itemFactors).length := by
  have hfactors (key : FamilyKey) : key.kind.isFactors =
      (decide (key.kind = .userFactors) || decide (key.kind = .itemFactors)) := by
    cases key.kind <;> rfl
  rw [factors, Table.keys_restrict, owners, owners, List.length_map, List.length_map]
  simp only [hfactors]
  induction s.families.keys with
  | nil => rfl
  | cons key rest ih =>
    cases hkind : key.kind <;> simp [hkind, ih] <;> omega

variable {s t : Store α} {key : FamilyKey} {vectors : Family α}

theorem factors_of_parameters {side : SideOwner} (hrole : key.kind.role = .parameters side)
    (h : t.families = s.families.insert key vectors) : t.factors = s.factors := by
  rw [factors, factors, h, Table.restrict_insert FamilyKey.isFactors_congr,
    if_neg (Bool.eq_false_iff.1 (FamilyKind.isFactors_eq_false hrole))]

/-- A new family of factors is listed behind those that there are. -/
theorem keys_factors_of_insert (hkind : key.kind.isFactors = true)
    (hnew : s.families.find? key = none) (h : t.families = s.families.insert key vectors) :
    t.factors.keys = s.factors.keys ++ [key] := by
  have hkeys : (s.families.insert key vectors).keys = s.families.keys ++ [key] := by
    rw [Table.keys_insert, Table.contains, hnew]
    rfl
  rw [factors, factors, Table.keys_restrict, Table.keys_restrict, h, hkeys, List.filter_append,
    List.filter_singleton, hkind]
  rfl

variable [Scalar α]

/-! ## Dealing blocks -/

/-- The family that starts from the block of draws at `place`. -/
def block (shape : Shape α) (source : Nat → α) (n intercept place : Nat) : Family α :=
  (List.range shape.vectorCount).map fun c =>
    startVector source intercept (n + 3) (place + c * (n + 3))

/-- One block of draws is taken for every user and every item, behind the `first` draws. -/
structure Balanced (n first : Nat) (s : Store α) : Prop where
  size : s.shape.factorSize.count = .ok (n : Int)
  taken : s.draws.taken = first + s.factors.keys.length * s.shape.blockSize n

/-- A family of factors that was not there has started from the block at its place. -/
def Dealt (n first : Nat) (s t : Store α) (place : Nat) (key : FamilyKey) : Prop :=
  s.families.find? key = none ∧ ∃ intercept, key.kind.role = .factors intercept ∧
    t.families.find? key =
      some (block s.shape s.draws.source n intercept (first + place * s.shape.blockSize n))

/-- What happens to a balanced store while families start: it stays balanced, its
families stay, and every new family of factors starts from the next block. -/
structure Dealing (n first : Nat) (s t : Store α) : Prop where
  balanced : t.Balanced n first
  shape : t.shape = s.shape
  source : t.draws.source = s.draws.source
  families : s.families.entries <+: t.families.entries
  dealt (place : Nat) (key : FamilyKey) (hnew : s.factors.keys.length ≤ place)
    (hkey : t.factors.keys[place]? = some key) : Dealt n first s t place key

/-- A balanced store deals the next blocks to the families that start. -/
def Deals (n first : Nat) (s t : Store α) : Prop := s.Balanced n first → Dealing n first s t

variable {n first : Nat} {u : Store α}

/-- The factors that there were are still listed in their places. -/
theorem Dealing.keys_factors (h : Dealing n first s t) : s.factors.keys <+: t.factors.keys := by
  rw [factors, factors, Table.keys_restrict, Table.keys_restrict]
  exact (h.families.map _).filter _

theorem Dealing.trans (h : Dealing n first s t) (h' : Dealing n first t u) :
    Dealing n first s u := by
  refine ⟨h'.balanced, h'.shape.trans h.shape, h'.source.trans h.source,
    h.families.trans h'.families, fun place key hnew hkey => ?_⟩
  by_cases hplace : place < t.factors.keys.length
  · -- The family started on the way to `t`, and stays as it is after that.
    obtain ⟨later, hlater⟩ := h'.keys_factors
    rw [← hlater, List.getElem?_append_left hplace] at hkey
    obtain ⟨hnone, intercept, hrole, hfind⟩ := h.dealt place key hnew hkey
    exact ⟨hnone, intercept, hrole, Table.find?_of_prefix h'.families hfind⟩
  · obtain ⟨hnone, intercept, hrole, hfind⟩ := h'.dealt place key (Nat.not_lt.1 hplace) hkey
    rw [h.shape, h.source] at hfind
    refine ⟨?_, intercept, hrole, hfind⟩
    by_contra hsome
    obtain ⟨family, hfamily⟩ := Option.ne_none_iff_exists'.1 hsome
    rw [Table.find?_of_prefix h.families hfamily] at hnone
    cases hnone

/-- Nothing starts where the families stay as they are. -/
theorem Deals.of_families (hshape : t.shape = s.shape) (hdraws : t.draws = s.draws)
    (hfamilies : t.families = s.families) : Deals n first s t := by
  intro hs
  have hfactors : t.factors = s.factors := congrArg (Table.restrict _) hfamilies
  refine ⟨⟨?_, ?_⟩, hshape, by rw [hdraws], hfamilies ▸ List.prefix_rfl,
    fun place key hnew hkey => ?_⟩
  · rw [hshape, hs.size]
  · rw [hdraws, hfactors, hshape, hs.taken]
  · rw [hfactors, List.getElem?_eq_none hnew] at hkey
    cases hkey

instance : IsPreorder (Store α) (Deals n first) where
  refl _ := .of_families rfl rfl rfl
  trans _ _ _ h h' hs := (h hs).trans (h' (h hs).balanced)

/-! ## Starting families -/

/-- The first thresholds are drawn, and nothing else is. -/
theorem balanced_create {shape : Shape α} (h : shape.factorSize.count = .ok (n : Int))
    (draws : Draws α) :
    (create shape draws).Balanced n (draws.taken + shape.cutDraws) := by
  refine ⟨h, ?_⟩
  show (initialCuts shape draws).2.taken = _ + 0 * _
  rw [Nat.zero_mul, Nat.add_zero, initialCuts, Shape.cutDraws]
  cases shape.ordinal <;> cases shape.cutCount <;> simp [Draws.next]

theorem source_create (shape : Shape α) (draws : Draws α) :
    (create shape draws).draws.source = draws.source := by
  show (initialCuts shape draws).2.source = _
  rw [initialCuts]
  cases shape.ordinal <;> cases shape.cutCount <;> rfl

/-- In a balanced store a new family of factors starts from the next block, if arrays
have its size. -/
theorem Balanced.run_freshFamily (hs : s.Balanced n first) {kind : FamilyKind} {intercept : Nat}
    (hrole : kind.role = .factors intercept) (hlimit : ((n + 3 : Nat) : Int) < arrayLimit) :
    (freshFamily kind).run s =
      (.ok (block s.shape s.draws.source n intercept s.draws.taken),
        s.skip (s.shape.blockSize n)) := by
  obtain ⟨hsize, hroom⟩ := Shape.room_of_count hs.size hrole
  exact run_freshFamily_factors hrole hsize hroom hlimit

/-- A new family from the next block. -/
theorem Balanced.dealing (hs : s.Balanced n first) {intercept : Nat}
    (hrole : key.kind.role = .factors intercept) (hnew : s.families.find? key = none)
    (hshape : t.shape = s.shape) (hsource : t.draws.source = s.draws.source)
    (htaken : t.draws.taken = s.draws.taken + s.shape.blockSize n)
    (hfamilies : t.families = s.families.insert key
      (block s.shape s.draws.source n intercept s.draws.taken)) : Dealing n first s t := by
  have hkind : key.kind.isFactors = true := by rw [FamilyKind.isFactors, hrole]
  have hkeys := keys_factors_of_insert hkind hnew hfamilies
  have hentries := Table.entries_insert_of_find?_eq_none
    (block s.shape s.draws.source n intercept s.draws.taken) hnew
  refine ⟨⟨by rw [hshape, hs.size], ?_⟩, hshape, hsource, ?_, fun place other hplace hother => ?_⟩
  · rw [htaken, hs.taken, hkeys, hshape, List.length_append, List.length_singleton, Nat.succ_mul,
      Nat.add_assoc]
  · rw [hfamilies, hentries]
    exact List.prefix_append _ _
  · -- Behind the places that were taken there is only one.
    obtain ⟨hlt, -⟩ := List.getElem?_eq_some_iff.1 hother
    rw [hkeys, List.length_append, List.length_singleton] at hlt
    obtain rfl : place = s.factors.keys.length := by omega
    rw [hkeys, List.getElem?_concat_length] at hother
    injection hother with hother
    subst hother
    refine ⟨hnew, intercept, hrole, ?_⟩
    rw [hfamilies, Table.find?_insert, if_pos BEq.rfl, hs.taken]

/-- Parameters of side information need no draws. -/
theorem Balanced.dealing_of_parameters (hs : s.Balanced n first) {side : SideOwner}
    (hrole : key.kind.role = .parameters side) (hnew : s.families.find? key = none) :
    Dealing n first s { s with families := s.families.insert key vectors } := by
  have hfactors : factors { s with families := s.families.insert key vectors } = s.factors :=
    factors_of_parameters hrole rfl
  refine ⟨⟨hs.size, ?_⟩, rfl, rfl, ?_, fun place other hplace hother => ?_⟩
  · rw [hfactors]
    exact hs.taken
  · exact ⟨_, (Table.entries_insert_of_find?_eq_none vectors hnew).symm⟩
  · rw [hfactors, List.getElem?_eq_none hplace] at hother
    cases hother

/-- Reading a family deals a block if it is one of factors, is not there and can start. -/
theorem family_deals (kind : FamilyKind) (owner : Id) :
    Moves (Deals n first) (family (α := α) kind owner) := by
  intro s hs
  rw [run_family]
  cases hfind : s.families.find? ⟨kind, owner⟩ with
  | some vectors => exact refl_of (Deals n first) s hs
  | none =>
    cases hrole : kind.role with
    | parameters side =>
      rw [run_freshFamily_of_parameters hrole]
      cases s.shape.zeros side with
      | error e => exact refl_of (Deals n first) s hs
      | ok vectors => exact hs.dealing_of_parameters hrole hfind
    | factors intercept =>
      by_cases hlimit : ((n + 3 : Nat) : Int) < arrayLimit
      · rw [hs.run_freshFamily hrole hlimit]
        exact hs.dealing hrole hfind rfl rfl rfl rfl
      · rw [run_freshFamily_factors_of_le hrole (Shape.room_of_count hs.size hrole).1
          (Int.not_lt.1 hlimit)]
        exact refl_of (Deals n first) s hs

end Store

end LatentFactors
