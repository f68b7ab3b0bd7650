import LatentFactors.Proofs.Store.Start
import LatentFactors.Proofs.Table
import LatentFactors.Proofs.Vec.Exchange

/-!
# The transposed store

A store in which users and items change roles.  `Store.transposed` gives the
families of a kind to the kind of the other side, exchanges the reserved
entries of the factors, and moves side information of users to items and back.
The thresholds and the draws stay.

Every name of a kind, a place or a size has its transposed name, and what the
transposed store reads under the transposed name is what the store reads under
the name (`Store.find?_transposed`, `Store.side_transposed`).  Transposing twice
does nothing.
-/

namespace LatentFactors

/-! ## Names -/

/-- The other side. -/
def SideOwner.transposed : SideOwner → SideOwner
  | user => item
  | item => user
  | pair => pair

/-- The role of a family of the other side. -/
def FamilyRole.transposed : FamilyRole → FamilyRole
  | factors intercept => factors (exchangedIndex intercept)
  | parameters owner => parameters owner.transposed

namespace FamilyKind

/-- The kind that corresponds to a kind on the other side. -/
def transposed : FamilyKind → FamilyKind
  | userFactors => itemFactors
  | itemFactors => userFactors
  | userOnItemSide => itemOnUserSide
  | itemOnUserSide => userOnItemSide
  | userOnDynamicSide => itemOnDynamicSide
  | itemOnDynamicSide => userOnDynamicSide

@[simp] theorem transposed_transposed (kind : FamilyKind) : kind.transposed.transposed = kind := by
  cases kind <;> rfl

theorem role_transposed (kind : FamilyKind) : kind.transposed.role = kind.role.transposed := by
  cases kind <;> rfl

theorem transposed_inj {kind kind' : FamilyKind} :
    kind.transposed = kind'.transposed ↔ kind = kind' :=
  ⟨fun h => by rw [← kind.transposed_transposed, h, transposed_transposed], congrArg _⟩

end FamilyKind

namespace FamilyKey

/-- The key of the corresponding family of the same owner. -/
def transposed (key : FamilyKey) : FamilyKey := ⟨key.kind.transposed, key.owner⟩

@[simp] theorem transposed_transposed (key : FamilyKey) : key.transposed.transposed = key := by
  rw [transposed, transposed, FamilyKind.transposed_transposed]

theorem beq_transposed (k j : FamilyKey) : (k.transposed == j.transposed) = (k == j) := by
  rw [Bool.eq_iff_iff, beq_iff, beq_iff]
  exact and_congr_left' FamilyKind.transposed_inj

end FamilyKey

namespace SideKey

/-- The place on the other side; a pair changes its order. -/
def transposed : SideKey → SideKey
  | user u => item u
  | item i => user i
  | pair u i => pair i u

@[simp] theorem transposed_transposed (key : SideKey) : key.transposed.transposed = key := by
  cases key <;> rfl

theorem owner_transposed (key : SideKey) : key.transposed.owner = key.owner.transposed := by
  cases key <;> rfl

theorem beq_transposed (k j : SideKey) : (k.transposed == j.transposed) = (k == j) := by
  rw [Bool.eq_iff_iff, beq_iff, beq_iff]
  cases k <;> cases j <;> simp [transposed, owner, names, and_comm]

end SideKey

/-! ## Stores -/

variable {α : Type}

/-- The vectors of a family on the other side: factors are exchanged. -/
def Family.transposed (role : FamilyRole) (family : Family α) : Family α :=
  match role with
  | .factors _ => family.exchanged
  | .parameters _ => family

theorem Family.transposed_transposed (role : FamilyRole) (family : Family α) :
    Family.transposed role.transposed (Family.transposed role family) = family := by
  cases role with
  | factors intercept => exact Family.exchanged_exchanged family
  | parameters owner => rfl

@[simp] theorem Family.length_transposed (role : FamilyRole) (family : Family α) :
    (Family.transposed role family).length = family.length := by
  cases role with
  | factors intercept => exact Family.length_exchanged family
  | parameters owner => rfl

/-- The vectors on the other side are of the kinds and sizes that there were. -/
theorem Family.exists_of_mem_transposed {role : FamilyRole} {family : Family α} {w : Vec α}
    (h : w ∈ Family.transposed role family) :
    ∃ v ∈ family, w.size = v.size ∧ w.isSparse = v.isSparse := by
  cases role with
  | factors intercept =>
    obtain ⟨v, hv, rfl⟩ := List.mem_map.1 h
    exact ⟨v, hv, Vec.size_exchanged v, Vec.isSparse_exchanged v⟩
  | parameters owner => exact ⟨w, h, rfl, rfl⟩

namespace Shape

/-- The shape with the sizes of side information of users and items
exchanged. -/
def transposed (shape : Shape α) : Shape α :=
  { shape with userSideSize := shape.itemSideSize, itemSideSize := shape.userSideSize }

theorem sideSize_transposed (shape : Shape α) (owner : SideOwner) :
    shape.transposed.sideSize owner.transposed = shape.sideSize owner := by
  cases owner <;> rfl

end Shape

namespace Store

def transposedFamilies (families : Table FamilyKey (Family α)) : Table FamilyKey (Family α) :=
  families.relabel FamilyKey.transposed fun key => Family.transposed key.kind.role

def transposedSides (sides : Table SideKey (Vec α)) : Table SideKey (Vec α) :=
  sides.relabel SideKey.transposed fun _ v => v

/-- The store in which users and items change roles. -/
def transposed (s : Store α) : Store α where
  shape := s.shape.transposed
  families := transposedFamilies s.families
  sides := transposedSides s.sides
  cuts := s.cuts
  draws := s.draws

theorem shape_transposed (s : Store α) : s.transposed.shape = s.shape.transposed := rfl

@[simp] theorem transposed_transposed (s : Store α) : s.transposed.transposed = s := by
  obtain ⟨shape, families, sides, cuts, draws⟩ := s
  have hfamilies : transposedFamilies (transposedFamilies families) = families := by
    refine Table.relabel_relabel FamilyKey.transposed_transposed (fun key family => ?_) families
    show Family.transposed key.kind.transposed.role _ = family
    rw [FamilyKind.role_transposed]
    exact Family.transposed_transposed key.kind.role family
  have hsides : transposedSides (transposedSides sides) = sides :=
    Table.relabel_relabel SideKey.transposed_transposed (fun _ _ => rfl) sides
  rw [transposed, transposed, hfamilies, hsides]
  rfl

theorem find?_transposed (s : Store α) (key : FamilyKey) :
    s.transposed.families.find? key.transposed =
      (s.families.find? key).map (Family.transposed key.kind.role) :=
  Table.find?_relabel FamilyKey.beq_transposed
    (fun k j h => by rw [(FamilyKey.beq_iff.1 h).1]) s.families key

theorem hasFamily_transposed (s : Store α) {kind : FamilyKind} {owner : Id}
    (h : s.hasFamily kind owner = true) : s.transposed.hasFamily kind.transposed owner = true := by
  have hfind := s.find?_transposed ⟨kind, owner⟩
  rw [hasFamily, Table.contains] at h ⊢
  rw [FamilyKey.transposed] at hfind
  rw [hfind, Option.isSome_map]
  exact h

theorem find?_sides_transposed (s : Store α) (key : SideKey) :
    s.transposed.sides.find? key.transposed = s.sides.find? key :=
  (Table.find?_relabel SideKey.beq_transposed (fun _ _ _ => rfl) s.sides key).trans
    Option.map_id'

theorem side_transposed [Scalar α] (s : Store α) (key : SideKey) :
    s.transposed.side key.transposed = s.side key := by
  rw [side, side, find?_sides_transposed, SideKey.owner_transposed, shape_transposed,
    Shape.sideSize_transposed]

end Store

end LatentFactors
