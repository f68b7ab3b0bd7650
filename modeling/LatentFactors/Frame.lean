import LatentFactors.Fault
import LatentFactors.Grouping
import LatentFactors.Id
import LatentFactors.Table
import LatentFactors.Word

/-!
# Frames of named columns

A `Frame` is a table of columns of one length.  A column holds integers of
one width, numbers of which some may be missing, texts of which some may be
missing, flags, or cells of several kinds.  The same column can be read as
names of users and items (`Column.ids`), as numbers (`Column.numerals`) or as
whole numbers (`Column.wholeNumbers`).

An undefined number counts as missing.
-/

namespace LatentFactors

/-- A value of a column of several kinds. -/
inductive Cell where
  | int (n : Int)
  | flag (b : Bool)
  | missing
  deriving DecidableEq, Repr

/-- A column of a frame. -/
inductive Column (α : Type) where
  | ints (width : Width) (values : List Int)
  | reals (values : List (Option α))
  | texts (values : List (Option String))
  | flags (values : List Bool)
  | cells (values : List Cell)
  deriving Repr

/-- The elements of a list at some positions. -/
def pickRows {β : Type} (rows : List Nat) (xs : List β) : List β :=
  let elements := xs.toArray
  rows.filterMap (elements[·]?)

namespace Column

variable {α : Type}

/-- The number of values, missing ones included. -/
def size : Column α → Nat
  | ints _ values => values.length
  | reals values => values.length
  | texts values => values.length
  | flags values => values.length
  | cells values => values.length

/-- The values of some rows. -/
def pick (rows : List Nat) : Column α → Column α
  | ints width values => ints width (pickRows rows values)
  | reals values => reals (pickRows rows values)
  | texts values => texts (pickRows rows values)
  | flags values => flags (pickRows rows values)
  | cells values => cells (pickRows rows values)

/-- The column of some integers. -/
def ofInts (values : List Int) : Column α := ints (.ofValues values) values

variable [Scalar α]

/-- A number that may be missing, with an undefined one as missing. -/
def present (x : α) : Option α := if Scalar.isUndefined x then none else some x

/-- The column of some numbers. -/
def ofReals (xs : List α) : Column α := reals (xs.map present)

/-- The name that a number stands for. -/
def idOfReal (x : α) : Id :=
  match Scalar.truncate x with
  | .ok n =>
    let whole : α := Scalar.ofInt n
    if Scalar.equals x whole then ⟨.int n, Scalar.spell whole⟩
    else ⟨.fraction (Scalar.spell x), none⟩
  | .error .infinite => ⟨.fraction (Scalar.spell x), none⟩
  | .error .undefined => ⟨.undefined 0, none⟩

/-- The name that a cell stands for. -/
def idOfCell : Cell → Id
  | .int n => .int n
  | .flag b => .int b.toInt
  | .missing => ⟨.nothing, none⟩

/-- The values as names. -/
def ids : Column α → List Id
  | ints _ values => values.map .int
  | reals values => values.map fun x => x.elim ⟨.undefined 0, none⟩ idOfReal
  | texts values => values.map fun s => s.elim ⟨.missing, none⟩ .text
  | flags values => values.map fun b => .int b.toInt
  | cells values => values.map idOfCell

/-- The number that a text spells; a missing one is undefined. -/
def numeralOfText : Option String → Outcome α (Numeral α)
  | none => .ok (.real Scalar.undefined)
  | some s =>
    match Scalar.read s with
    | some x => .ok (.real x)
    | none => .error .malformedNumber

/-- The number in a cell; a missing one is undefined. -/
def numeralOfCell : Cell → Numeral α
  | .int n => .integer n
  | .flag b => .integer b.toInt
  | .missing => .real Scalar.undefined

/-- The values as numbers. -/
def numerals : Column α → Outcome α (List (Numeral α))
  | ints _ values => .ok (values.map .integer)
  | reals values => .ok (values.map fun x => .real (x.getD Scalar.undefined))
  | texts values => values.mapM numeralOfText
  | flags values => .ok (values.map fun b => .integer b.toInt)
  | cells values => .ok (values.map numeralOfCell)

/-- The values to compute with. -/
def values (c : Column α) : Outcome α (List α) := do
  (← c.numerals).mapM Outcome.real

/-- An integer in a word with a sign. -/
def signedWord (width : Width) (n : Int) : Outcome α Int :=
  match width with
  | .signed | .unsigned => .ok (Width.signed.wrap n)
  | .unbounded => if Width.signed.fits n then .ok n else .error .tooLarge

/-- The whole part of a number in a word with a sign.  The lowest word stands
for all that no word holds. -/
def wholeWord (x : α) : Outcome α Int :=
  match Scalar.truncate x with
  | .ok n => .ok (if Width.signed.fits n then n else -signedLimit)
  | .error _ => .error .notAnIntegerColumn

/-- The integer that a text spells. -/
def integerOfText : Option String → Outcome α Int
  | none => .error (.wholePart .undefined)
  | some s =>
    match Decimal.readInteger s with
    | some n => signedWord .unbounded n
    | none => .error .malformedNumber

/-- The whole part of every value, in words with a sign.  A column with a
missing or an infinite number has none. -/
def wholeNumbers : Column α → Outcome α (List Int)
  | ints width values => values.mapM (signedWord width)
  | reals values => values.mapM fun x => wholeWord (x.getD Scalar.undefined)
  | texts values => values.mapM integerOfText
  | flags values => .ok (values.map Bool.toInt)
  | cells values => values.mapM fun cell => match cell with
    | .int n => signedWord .unbounded n
    | .flag b => .ok b.toInt
    | .missing => .error (.wholePart .undefined)

/-- The larger one of two numbers. -/
def larger : Numeral α → Numeral α → Numeral α
  | .integer m, .integer n => .integer (max m n)
  | x, y => if Scalar.less x.value y.value then y else x

/-- The last one of some texts by code point. -/
def lastText (s : String) (ts : List String) : String :=
  ts.foldl (fun s t => if s < t then t else s) s

/-- The largest value that is not missing.  Integers are compared exactly, and
texts as texts, of which the last one has to spell an integer. -/
def largest : Column α → Outcome α (Option (Numeral α))
  | ints _ values => .ok (values.max?.map .integer)
  | texts values =>
    match values.filterMap id with
    | [] => .ok none
    | s :: ts => do return some (.integer (← integerOfText (some (lastText s ts))))
  | c => do
    match (← c.numerals).filter (!Scalar.isUndefined ·.value) with
    | [] => return none
    | y :: ys => return some (ys.foldl larger y)

/-- Subtracts an integer from integers.  It has to be of their width, and so
is what is left of the differences. -/
def shiftInts (width : Width) (values : List Int) (n : Int) : Outcome α (Column α) :=
  if width.fits n then .ok (ints width (values.map fun m => width.wrap (m - n)))
  else .error .tooLarge

/-- Subtracts a number from every value. -/
def shift (offset : Numeral α) (c : Column α) : Outcome α (Column α) :=
  match c, offset with
  | ints width values, .integer n => shiftInts width values n
  | flags values, .integer n => shiftInts .signed (values.map Bool.toInt) n
  | texts _, _ | cells _, _ => .error .wrongType
  | _, _ => do
    let offset ← Outcome.real offset
    return ofReals ((← c.values).map (· - offset))

/-- The column as a file keeps it.  Cells of several kinds become a column of
one kind if they can, and a column without cells holds texts.  Integers have
to fit words with a sign. -/
def kept (c : Column α) : Outcome α (Column α) :=
  let ints (values : List Int) : Outcome α (Column α) :=
    if values.all Width.signed.fits then .ok (.ints .signed values) else .error .tooLarge
  let flag? (cell : Cell) : Option Bool := match cell with
    | .flag b => some b
    | _ => none
  match c with
  | .ints .unbounded [] | .cells [] => .ok (texts [])
  | .ints .unbounded values => ints values
  | cells values =>
    let large := values.any fun cell => match cell with
      | .int n => !Width.signed.fits n
      | _ => false
    if large then .error .tooLarge
    else
      match values.mapM flag? with
      | some values => .ok (flags values)
      | none => .ok c
  | c => .ok c

end Column

/-- Columns with names, in their order. -/
structure Frame (α : Type) where
  columns : Table String (Column α)

namespace Frame

variable {α : Type}

/-- The column of a name. -/
def column (f : Frame α) (name : String) : Outcome α (Column α) :=
  match f.columns.find? name with
  | some c => .ok c
  | none => .error (.missingColumn name)

/-- The number of rows. -/
def size (f : Frame α) : Nat :=
  match f.columns.entries with
  | [] => 0
  | (_, c) :: _ => c.size

/-- The frame of some rows. -/
def pick (rows : List Nat) (f : Frame α) : Frame α :=
  ⟨⟨f.columns.entries.map fun (name, c) => (name, c.pick rows)⟩⟩

/-- The frame as a file keeps it. -/
def kept [Scalar α] (f : Frame α) : Outcome α (Frame α) := do
  let columns ← f.columns.entries.mapM fun (name, c) => do return (name, ← c.kept)
  return ⟨⟨columns⟩⟩

/-- Replaces a column in its place, or adds it as the last one. -/
def assign (f : Frame α) (name : String) (c : Column α) : Frame α :=
  ⟨f.columns.insert name c⟩

variable [Scalar α]

/-- The names in a column. -/
def ids (f : Frame α) (name : String) : Outcome α (List Id) := do
  return (← f.column name).ids

/-- The numbers in a column. -/
def numerals (f : Frame α) (name : String) : Outcome α (List (Numeral α)) := do
  (← f.column name).numerals

/-- The values to compute with in a column. -/
def values (f : Frame α) (name : String) : Outcome α (List α) := do
  (← f.column name).values

/-- The user of every row, if the row has one. -/
def users (f : Frame α) : Outcome α (List (Option Id)) := do
  return (← f.ids "user").map fun u => if u.isPresent then some u else none

end Frame

end LatentFactors
