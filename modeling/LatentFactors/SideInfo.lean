import LatentFactors.Frame
import LatentFactors.Vec.Basic

/-!
# Side information in long format

A frame of side information has one row for every nonzero entry: the key, the
index of the entry in the column `feature`, and the entry in the column
`value`.  `Frame.sideVectors` collects the rows of each key in a sparse
vector.

The key of a row is read from one or more columns.  A list of names that are
not all columns may instead name the rows themselves, one after the other.

Rows without a complete key are left out, a repeated index takes its last
value, and the keys are listed in ascending order.
-/

namespace LatentFactors

/-- Where the keys of a frame stand. -/
inductive KeyColumns where
  | one (name : String)
  | several (names : List String)
  deriving DecidableEq, Repr

/-- The key of some rows of a frame. -/
inductive RowKey where
  | single (id : Id)
  | parts (ids : List Id)
  deriving DecidableEq, Repr

/-- The ids in a key. -/
def RowKey.ids : RowKey → List Id
  | single id => [id]
  | parts ids => ids

namespace Frame

variable {α : Type} [Scalar α]

/-- The keys of rows that are named by a list: a list of one name gives keys
of one part. -/
def namedRows : List String → List (Option RowKey)
  | [name] => [some (.parts [.text name])]
  | names => names.map fun name => some (.single (.text name))

/-- The keys in some columns; a row in which a part of the key is missing has
none. -/
def columnKeys (f : Frame α) (names : List String) : Outcome α (List (Option RowKey)) := do
  let parts ← names.mapM f.ids
  let keys := (List.range f.size).map fun row => parts.filterMap (·[row]?)
  return keys.map fun key => if key.all Id.isPresent then some (.parts key) else none

/-- The key of every row. -/
def rowKeys (f : Frame α) : KeyColumns → Outcome α (List (Option RowKey))
  | .one name => do
    return (← f.ids name).map fun id => if id.isPresent then some (.single id) else none
  | .several names =>
    if names.isEmpty then
      if f.size = 0 then .ok [] else .error .nothingToChoose
    else if names.length = f.size && !names.all f.columns.contains then .ok (namedRows names)
    else f.columnKeys names

/-- The size of the vectors: the given one, which the largest index has to
fit, or the first one that fits. -/
def sideSize (f : Frame α) (size : Option Int) : Outcome α Int :=
  if f.size = 0 then .ok (size.getD 0)
  else do
    let top ← (← f.column "feature").largest
    match size, top with
    | none, none => throw (.wholePart .undefined)
    | none, some feature => return (← Outcome.whole feature) + 1
    | some n, none => return n
    | some n, some feature =>
      if feature.isBelow n then return n else throw (.featureOutside feature n)

/-- The vector of the given rows. -/
def sideVector (f : Frame α) (size : Int) (rows : List Nat) : Outcome α (Vec α) := do
  let indices ← ((← f.column "feature").pick rows).wholeNumbers
  let entries ← ((← f.column "value").pick rows).values
  Vec.ofEntries size (indices.zip (entries.map .real))

/-- The side information of every key, in ascending order of the keys. -/
def sideVectors (f : Frame α) (key : KeyColumns) (size : Option Int) :
    Outcome α (List (RowKey × Vec α)) := do
  let size ← f.sideSize size
  let keys ← f.rowKeys key
  let sorted := (distinctSome keys).mergeSort fun a b => Id.listAtMost a.ids b.ids
  sorted.mapM fun key => do return (key, ← f.sideVector size (rowsOf key keys))

end Frame

end LatentFactors
