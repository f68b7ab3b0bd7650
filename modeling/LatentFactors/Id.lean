import LatentFactors.Decimal.Spelling

/-!
# Users and items

Users and items are named by integers or by texts, and an integer differs
from every text.  A table of ratings or side information may also hold other
numbers, or nothing, where a name is expected.

A number with a point names the same user or item as the integer that it
equals, but it is shown as it is written.  So an `Id` is a `Name` to compare
by, with its spelling if it has one of its own.

An undefined number differs even from itself.  Every one that is stored gets
a serial number, from one on, that tells it apart.

`Id.atMost` is the order in which keys are listed: numbers by value before
texts by code point.
-/

namespace LatentFactors

/-- What users and items are compared by. -/
inductive Name where
  | int (n : Int)
  | text (s : String)
  /-- A number that is not an integer, by its shortest spelling. -/
  | fraction (spelling : String)
  /-- An undefined number; zero stands for one that is not stored. -/
  | undefined (serial : Nat)
  /-- Nothing stands where a text is expected. -/
  | missing
  /-- Nothing stands in a column that has no name at all. -/
  | nothing
  deriving DecidableEq, Repr

/-- The value of a name that is a number. -/
def Name.number? : Name → Option Decimal.Signed
  | int n => some ⟨n < 0, n.natAbs, 0⟩
  | fraction spelling => Decimal.Signed.ofText? spelling
  | _ => none

/-- The text of a name that is one. -/
def Name.text? : Name → Option String
  | text s => some s
  | _ => none

/-- The name of a user or an item, with its spelling if it is written as a
number with a point. -/
structure Id where
  name : Name
  spelling : Option String
  deriving DecidableEq, Repr

namespace Id

/-- The user or item of an integer. -/
@[match_pattern] def int (n : Int) : Id := ⟨.int n, none⟩

/-- The user or item of a text. -/
@[match_pattern] def text (s : String) : Id := ⟨.text s, none⟩

/-- Two spellings of one name are the same user or item. -/
instance : BEq Id := ⟨fun a b => a.name == b.name⟩

/-- Two ids are the same user or item exactly when their names are equal. -/
theorem beq_iff {a b : Id} : (a == b) = true ↔ a.name = b.name :=
  beq_iff_eq (a := a.name)

instance : EquivBEq Id where
  rfl := beq_iff.2 rfl
  symm h := beq_iff.2 (beq_iff.1 h).symm
  trans h k := beq_iff.2 ((beq_iff.1 h).trans (beq_iff.1 k))

/-- Whether there is a name. -/
def isPresent (a : Id) : Bool :=
  match a.name with
  | .int _ | .text _ | .fraction _ => true
  | .undefined _ | .missing | .nothing => false

/-- How an id is shown. -/
def label (a : Id) : String :=
  match a.spelling, a.name with
  | some spelling, _ => spelling
  | none, .int n => toString n
  | none, .text s => s
  | none, .fraction spelling => spelling
  | none, .undefined _ | none, .missing => "nan"
  | none, .nothing => "None"

/-- Orders numbers by value, then what is no name, then texts by code
point. -/
def atMost (a b : Id) : Bool :=
  match a.name.number?, b.name.number? with
  | some x, some y => x.atMost y
  | some _, none => true
  | none, some _ => false
  | none, none =>
    match a.name.text?, b.name.text? with
    | some s, some t => !(t < s)
    | some _, none => false
    | none, _ => true

/-- The lexicographic order on lists of names. -/
def listAtMost : List Id → List Id → Bool
  | [], _ => true
  | _ :: _, [] => false
  | x :: xs, y :: ys => x.atMost y && (!y.atMost x || listAtMost xs ys)

end Id

end LatentFactors
