import LatentFactors.Proofs.Store.Start
import LatentFactors.Proofs.Table

/-!
# What families read as

Reading a family creates it if it is not there, so what it reads as is more than
what a store holds: parameters of side information that are not there read as
zeros (`Store.reading`).  Reading one family does not change what the others
read as (`Store.family_sameReadings`).
-/

namespace LatentFactors

variable {α : Type} [Scalar α]

/-- The parameters with which side information of an owner starts. -/
def Shape.zeros (shape : Shape α) (owner : SideOwner) : Outcome α (Family α) := do
  return List.replicate shape.vectorCount
    (← Vec.sparseZero (← (shape.sideSize owner).vectorSize))

namespace Store

/-- What a family reads as. -/
def reading (s : Store α) (key : FamilyKey) : Outcome α (Family α) :=
  ((family key.kind key.owner).run s).1

theorem reading_of_find? {s : Store α} {key : FamilyKey} {vectors : Family α}
    (h : s.families.find? key = some vectors) : s.reading key = .ok vectors := by
  obtain ⟨kind, owner⟩ := key
  rw [reading, run_family, h]

theorem run_freshFamily_of_parameters {s : Store α} {kind : FamilyKind} {owner : SideOwner}
    (hrole : kind.role = .parameters owner) :
    (freshFamily kind).run s = (s.shape.zeros owner, s) := by
  rw [freshFamily_eq, hrole]
  rfl

/-- Parameters of side information that are not there read as zeros. -/
theorem reading_of_parameters {s : Store α} {key : FamilyKey} {owner : SideOwner}
    (hrole : key.kind.role = .parameters owner) :
    s.reading key =
      match s.families.find? key with
      | some vectors => .ok vectors
      | none => s.shape.zeros owner := by
  cases hfind : s.families.find? key with
  | some vectors => exact reading_of_find? hfind
  | none =>
    obtain ⟨kind, name⟩ := key
    rw [reading, run_family, hfind, run_freshFamily_of_parameters hrole]
    cases s.shape.zeros owner <;> rfl

/-- Two spellings of a key read the same. -/
theorem reading_congr (s : Store α) {key key' : FamilyKey} {owner : SideOwner}
    (hrole : key.kind.role = .parameters owner) (h : (key == key') = true) :
    s.reading key = s.reading key' := by
  have hrole' : key'.kind.role = .parameters owner := by
    rw [← (FamilyKey.beq_iff.1 h).1]
    exact hrole
  rw [reading_of_parameters hrole, reading_of_parameters hrole', Table.find?_congr _ h]

/-- The parameters of side information read the same, whether or not they are
there already. -/
structure SameReadings (s t : Store α) : Prop where
  shape : t.shape = s.shape
  readings (key : FamilyKey) (owner : SideOwner) (h : key.kind.role = .parameters owner) :
    t.reading key = s.reading key

instance : IsPreorder (Store α) SameReadings where
  refl _ := ⟨rfl, fun _ _ _ => rfl⟩
  trans _ _ _ h h' :=
    ⟨h'.shape.trans h.shape, fun key owner hrole =>
      (h'.readings key owner hrole).trans (h.readings key owner hrole)⟩

/-- Reading a family does not change what parameters of side information read
as. -/
theorem family_sameReadings (kind : FamilyKind) (name : Id) :
    Moves SameReadings (family (α := α) kind name) := by
  refine family_moves_of (fun s n => ⟨rfl, fun key owner hrole => ?_⟩)
    fun s n vectors hfind hrun => ⟨rfl, fun key owner hrole => ?_⟩
  · rw [reading_of_parameters hrole, reading_of_parameters hrole]
    rfl
  · rw [reading_of_parameters hrole, reading_of_parameters hrole]
    dsimp only
    rw [Table.find?_insert]
    by_cases hkey : ((⟨kind, name⟩ : FamilyKey) == key) = true
    · -- What starts under the key is what the key read as.
      have hkind : kind = key.kind := (FamilyKey.beq_iff.1 hkey).1
      rw [if_pos hkey, ← Table.find?_congr s.families hkey, hfind]
      rw [run_freshFamily_of_parameters (hkind ▸ hrole)] at hrun
      exact (congrArg Prod.fst hrun).symm
    · rw [if_neg hkey]
      rfl

end Store

end LatentFactors
