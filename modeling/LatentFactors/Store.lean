import LatentFactors.Draws
import LatentFactors.Id
import LatentFactors.Setting
import LatentFactors.Vec.Basic

/-!
# The parameter store

A `Store` holds what has been learned: the thresholds of an ordinal response
and, for every user and item, families of parameter vectors.  It also holds
the side information that the parameters apply to.

A family comes into being when it is first read (`Store.family`).  Factors
start from random draws, with entry zero at zero and a constant one where the
other side keeps its bias, so that the product of a user and an item vector
contains both biases.  Parameters of side information start at zero.  Side
information that was never given reads as zeros, and nothing is stored.

Operations run in `StoreM`: a failed operation keeps what was stored before
it failed.  `offer` attaches side information without replacing any.
-/

namespace LatentFactors

/-- The sizes that the parameters of a store have. -/
structure Shape (α : Type) where
  factorSize : Setting α
  classes : Int
  ordinal : Bool
  userSideSize : Setting α
  itemSideSize : Setting α
  dynamicSideSize : Setting α

namespace Shape

variable {α : Type}

/-- The number of classes; no class and one class both mean a number. -/
def classCount (s : Shape α) : Int := if s.classes ≤ 1 then 1 else s.classes

/-- The number of vectors in a family: one for ordered, for two and for no
classes, otherwise one for each class. -/
def vectorCount (s : Shape α) : Nat :=
  if s.ordinal || s.classCount ≤ 2 then 1 else s.classCount.toNat

/-- The number of thresholds between the classes. -/
def cutCount (s : Shape α) : Nat := (s.classCount - 1).toNat

/-- The cardinality of the side information of an owner. -/
def sideSize (s : Shape α) : SideOwner → Setting α
  | .user => s.userSideSize
  | .item => s.itemSideSize
  | .pair => s.dynamicSideSize

end Shape

/-- The families of a user or an item. -/
inductive FamilyKind where
  | userFactors
  | itemFactors
  /-- Parameters of a user for item side information. -/
  | userOnItemSide
  /-- Parameters of a user for dynamic side information. -/
  | userOnDynamicSide
  /-- Parameters of an item for user side information. -/
  | itemOnUserSide
  /-- Parameters of an item for dynamic side information. -/
  | itemOnDynamicSide
  deriving DecidableEq, Repr

/-- A family of a user or an item. -/
structure FamilyKey where
  kind : FamilyKind
  owner : Id
  deriving DecidableEq, Repr

namespace FamilyKey

/-- The families of one kind are told apart by the names of their owners. -/
instance : BEq FamilyKey := ⟨fun a b => a.kind == b.kind && a.owner == b.owner⟩

/-- Two keys are the same exactly when they have one kind and one name. -/
theorem beq_iff {a b : FamilyKey} :
    (a == b) = true ↔ a.kind = b.kind ∧ a.owner.name = b.owner.name := by
  change (a.kind == b.kind && a.owner == b.owner) = true ↔ _
  rw [Bool.and_eq_true, beq_iff_eq, Id.beq_iff]

instance : EquivBEq FamilyKey where
  rfl := beq_iff.2 ⟨rfl, rfl⟩
  symm h := beq_iff.2 ⟨(beq_iff.1 h).1.symm, (beq_iff.1 h).2.symm⟩
  trans h k := beq_iff.2
    ⟨(beq_iff.1 h).1.trans (beq_iff.1 k).1, (beq_iff.1 h).2.trans (beq_iff.1 k).2⟩

end FamilyKey

/-- A place for side information. -/
inductive SideKey where
  | user (user : Id)
  | item (item : Id)
  | pair (user item : Id)
  deriving DecidableEq, Repr

namespace SideKey

/-- Whether side information belongs to a user, an item or a pair. -/
def owner : SideKey → SideOwner
  | user _ => .user
  | item _ => .item
  | pair _ _ => .pair

/-- The place for side information of an owner, for a user and an item. -/
def ofOwner (user item : Id) : SideOwner → SideKey
  | .user => .user user
  | .item => .item item
  | .pair => .pair user item

/-- The names that a place for side information belongs to. -/
def names : SideKey → List Name
  | user u => [u.name]
  | item i => [i.name]
  | pair u i => [u.name, i.name]

/-- The places of one kind of side information are told apart by names. -/
instance : BEq SideKey := ⟨fun a b => a.owner == b.owner && a.names == b.names⟩

/-- Two places are the same exactly when they have one kind and the same
names. -/
theorem beq_iff {a b : SideKey} : (a == b) = true ↔ a.owner = b.owner ∧ a.names = b.names := by
  change (a.owner == b.owner && a.names == b.names) = true ↔ _
  rw [Bool.and_eq_true, beq_iff_eq, beq_iff_eq]

instance : EquivBEq SideKey where
  rfl := beq_iff.2 ⟨rfl, rfl⟩
  symm h := beq_iff.2 ⟨(beq_iff.1 h).1.symm, (beq_iff.1 h).2.symm⟩
  trans h k := beq_iff.2
    ⟨(beq_iff.1 h).1.trans (beq_iff.1 k).1, (beq_iff.1 h).2.trans (beq_iff.1 k).2⟩

end SideKey

/-- The learned parameters, the side information and the random draws still
to be taken. -/
structure Store (α : Type) where
  shape : Shape α
  families : Table FamilyKey (Family α)
  sides : Table SideKey (Vec α)
  cuts : List α
  draws : Draws α

/-- An operation on a store.  What it stored before it failed is kept. -/
abbrev StoreM (α : Type) := ExceptT (Fault α) (StateM (Store α))

/-- The index of the constant one in the factors of a user. -/
def userIntercept : Nat := 1

/-- The index of the constant one in the factors of an item. -/
def itemIntercept : Nat := 2

namespace Store

variable {α : Type}

/-- An outcome that does not depend on the store. -/
def lift {β : Type} (r : Outcome α β) : StoreM α β := ExceptT.mk (pure r)

/-- Whether a family has been created. -/
def hasFamily (s : Store α) (kind : FamilyKind) (owner : Id) : Bool :=
  s.families.contains ⟨kind, owner⟩

/-- The owners of the families of a kind, in the order of creation. -/
def owners (s : Store α) (kind : FamilyKind) : List Id :=
  (s.families.keys.filter (·.kind = kind)).map (·.owner)

/-- Whether side information has been given. -/
def hasSide (s : Store α) (key : SideKey) : Bool := s.sides.contains key

/-- Stores a family. -/
def setFamily (kind : FamilyKind) (owner : Id) (family : Family α) : StoreM α Unit :=
  modify fun s => { s with families := s.families.insert ⟨kind, owner⟩ family }

/-- Forgets side information, if there is any. -/
def removeSide (key : SideKey) : StoreM α Unit :=
  modify fun s => { s with sides := s.sides.erase key }

/-- Replaces the thresholds by as many others. -/
def setCuts (cuts : List α) : StoreM α Unit := do
  let s ← get
  if cuts.length ≠ s.cuts.length then throw (.cutCount s.cuts.length cuts.length)
  else set { s with cuts }

section

variable [Scalar α]

/-- Replaces one threshold; a negative index counts from the end. -/
def setCut (index : Int) (y : Numeral α) : StoreM α Unit := do
  let s ← get
  let place ← lift (place s.cuts.length index)
  let x ← lift (Outcome.real y)
  set { s with cuts := s.cuts.set place x }

/-- The lower end of the random starting values. -/
def drawLow : α := Scalar.decimal 1 1

/-- The upper end of the random starting values. -/
def drawHigh : α := Scalar.decimal 2 1

/-- The first thresholds: a random one, and for an ordinal response equal
increments after it. -/
def initialCuts (shape : Shape α) (draws : Draws α) : List α × Draws α :=
  match shape.ordinal, shape.cutCount with
  | true, n + 1 =>
    let (u, rest) := draws.next
    let increment := Scalar.decimal 9 1 / Scalar.ofInt (n + 1)
    (Draws.between drawLow drawHigh u :: List.replicate n increment, rest)
  | _, n => (List.replicate n 0, draws)

/-- The store in which nothing has been learned. -/
def create (shape : Shape α) (draws : Draws α) : Store α :=
  let (cuts, rest) := initialCuts shape draws
  ⟨shape, .empty, .empty, cuts, rest⟩

/-- A random factor vector with a one at `intercept`.  Nothing is drawn for a
size that no array has. -/
def drawVector (intercept : Nat) : StoreM α (Vec α) := do
  let s ← get
  let size := (← lift s.shape.factorSize.count) + 3
  lift (checkArray size)
  let (us, rest) := s.draws.take size.toNat
  set { s with draws := rest }
  let entries := us.map (Draws.between drawLow drawHigh)
  lift do (← (Vec.dense entries.toArray).put 0 0).put intercept 1

/-- The starting vectors of a family. -/
def freshFamily (kind : FamilyKind) : StoreM α (Family α) := do
  let shape := (← get).shape
  let zeros (owner : SideOwner) : StoreM α (Family α) := lift do
    return List.replicate shape.vectorCount (← Vec.sparseZero (← (shape.sideSize owner).vectorSize))
  match kind with
  | .userFactors => (List.replicate shape.vectorCount userIntercept).mapM drawVector
  | .itemFactors => (List.replicate shape.vectorCount itemIntercept).mapM drawVector
  | .userOnItemSide => zeros .item
  | .itemOnUserSide => zeros .user
  | .userOnDynamicSide | .itemOnDynamicSide => zeros .pair

/-- Reads a family, creating it if needed. -/
def family (kind : FamilyKind) (owner : Id) : StoreM α (Family α) := do
  match (← get).families.find? ⟨kind, owner⟩ with
  | some vectors => return vectors
  | none =>
    let vectors ← freshFamily kind
    setFamily kind owner vectors
    return vectors

/-- Creates a family unless there is one. -/
def touch (kind : FamilyKind) (owner : Id) : StoreM α Unit := do
  let _ ← family kind owner

/-- Reads side information; what was never given is all zeros. -/
def side (s : Store α) (key : SideKey) : Outcome α (Vec α) :=
  match s.sides.find? key with
  | some v => .ok v
  | none => do Vec.sparseZero (← (s.shape.sideSize key.owner).vectorSize)

/-- Reads the side information of a user, of an item and of both. -/
def sidesOf (s : Store α) (user item : Id) : Outcome α (SideOwner → Vec α) := do
  let ofUser ← s.side (.user user)
  let ofItem ← s.side (.item item)
  let ofPair ← s.side (.pair user item)
  return fun
    | .user => ofUser
    | .item => ofItem
    | .pair => ofPair

/-- Gives side information, which must have the cardinality of its kind. -/
def setSide (key : SideKey) (v : Vec α) : StoreM α Unit := do
  let s ← get
  let expected := s.shape.sideSize key.owner
  if !expected.isExactly v.size then
    throw (.sideCardinality key.owner v.size expected.spelling)
  else set { s with sides := s.sides.insert key v }

/-- Gives side information unless it has been given already. -/
def offer (key : SideKey) (v : Vec α) : StoreM α Unit := do
  if (← get).hasSide key then return () else setSide key v

/-- Offers side information one by one, up to the first failure. -/
def offerAll (offers : List (SideKey × Vec α)) : StoreM α Unit :=
  offers.forM fun (key, v) => offer key v

end

end Store

end LatentFactors
