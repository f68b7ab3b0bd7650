import LatentFactors.Frame
import LatentFactors.Text.Json

/-!
# Frames as JSON texts

A frame is written as a JSON object with an array for each column, and `null`
stands for a missing value.  A column of integers, of numbers, of truth values
or of texts reads back as what it was.
-/

namespace LatentFactors.Text.Columns

/-- The elements that are missing or of one kind, if all of them are. -/
def readAll {β : Type} (read : Json → Option β) (elements : List Json) :
    Option (List (Option β)) :=
  elements.mapM fun v => match v with
    | .null => some none
    | v => (read v).map some

/-- Reads an integer. -/
def integer? : Json → Option Int
  | .number (.integer n) => some n
  | _ => none

/-- Reads a number. -/
def real? : Json → Option Float
  | .number n => some n.value
  | _ => none

/-- Reads a truth value. -/
def flag? : Json → Option Bool
  | .bool b => some b
  | _ => none

/-- Reads a text. -/
def text? : Json → Option String
  | .string s => some s
  | _ => none

/-- The column of some elements; without an element it holds texts. -/
def column? (elements : List Json) : Option (Column Float) :=
  if elements.isEmpty then some (.texts [])
  else
    match elements.mapM integer?, elements.mapM flag?, readAll real? elements with
    | some ns, _, _ => some (.ofInts ns)
    | none, some bs, _ => some (.flags bs)
    | none, none, some xs => some (.reals xs)
    | none, none, none => (readAll text? elements).map .texts

/-- The frame of a JSON value. -/
def ofJson? : Json → Option (Frame Float)
  | .object members => do
    let columns ← members.mapM fun (name, v) => match v with
      | .array elements => do return (name, ← column? elements)
      | _ => none
    return ⟨⟨columns⟩⟩
  | _ => none

/-- Reads a frame. -/
def read? (text : String) : Option (Frame Float) := do ofJson? (← Json.read? text)

/-- The elements of a column. -/
def elements : Column Float → List Json
  | .ints _ ns => ns.map fun n => .number (.integer n)
  | .reals xs => xs.map fun x => (x.map fun x => Json.number (.real x)).getD .null
  | .texts ss => ss.map fun s => (s.map Json.string).getD .null
  | .flags bs => bs.map .bool
  | .cells cells => cells.map fun cell => match cell with
    | .int n => .number (.integer n)
    | .flag b => .bool b
    | .missing => .null

/-- Writes a frame. -/
def write (f : Frame Float) : String :=
  (Json.object (f.columns.entries.map fun (name, c) => (name, .array (elements c)))).text

end LatentFactors.Text.Columns
