import LatentFactors.Fault
import LatentFactors.Text.Delimited.Scanner
import LatentFactors.Text.Delimited.Strict
import LatentFactors.Text.Pattern.Match
import LatentFactors.Text.Pattern.Reader

/-!
# The rows of a delimited text

A separator of one plain character, or the pattern for blanks, separates
fields that may be quoted.  Any other character separates fields with strict
quotes.  A longer separator is a pattern, and there are no quotes then: each
line is cut at the matches of the pattern, without the blanks at its ends.

A byte order mark at the start of a text is dropped.  With a pattern or with
strict quotes, so are the rows of one blank field.
-/

namespace LatentFactors.Text.Delimited

/-- The text of a field, if the field is there. -/
abbrev Field := Option String

/-- How the fields of a text are separated. -/
inductive Separator where
  | scanned (separation : Separation)
  | strict (c : Char)
  | pattern (p : Pattern)

namespace Separator

/-- Reads a pattern. -/
def ofPattern (written : String) : Outcome Float Separator :=
  match Pattern.read written with
  | .ok p => .ok (.pattern p)
  | .error .malformed => .error .malformedPattern
  | .error .hugeCount => .error .tooLarge
  | .error .mixedAlphabets => .error .unusableSeparator

/-- The separator that is written in a text. -/
def ofText (written : String) : Outcome Float Separator :=
  match written.toList with
  | [] => .error .unusableSeparator
  | [c] => .ok (if c.toNat < 128 then .scanned (.char c) else .strict c)
  | ['\\', 's', '+'] => .ok (.scanned .blanks)
  | _ => ofPattern written

end Separator

/-- The byte order mark. -/
def mark : Char := '\ufeff'

/-- The rows of a text, and the number of fields of the first one. -/
structure Rows where
  width : Nat
  rows : List (List Field)
  deriving DecidableEq, Repr

namespace Rows

/-- The rows with the number of fields of the first one. -/
def ofList (rows : List (List Field)) : Rows := ⟨(rows.head?.getD []).length, rows⟩

/-! ## Quoted fields -/

/-- The rows of a text whose fields may be quoted.  A field ends at a
character without a code. -/
def scan (separation : Separation) (text : List Char) : Outcome Float Rows :=
  let text := if text.head? == some mark then text.tail else text
  match Scanner.rows? separation text with
  | none => .error .malformedRows
  | some rows =>
    .ok (ofList (rows.map fun row => row.map fun field =>
      some (String.ofList (field.toList.takeWhile (· != '\x00')))))

/-! ## Patterns and strict quotes -/

/-- Whether a row is more than one blank field. -/
def isKept (row : List Field) : Bool :=
  1 < row.length || row.any (·.any fun field => !(Decimal.trimBlanks field.toList).isEmpty)

/-- Drops a byte order mark at the start of a field.  If a quote follows the
mark, it has to be closed in the field, and both quotes are dropped. -/
def dropMark (field : String) : Outcome Float String :=
  match field.toList with
  | '\ufeff' :: '"' :: rest =>
    match rest.dropWhile (· != '"') with
    | [] => .error .malformedMark
    | _ :: behind => .ok (String.ofList (rest.takeWhile (· != '"') ++ behind))
  | '\ufeff' :: rest => .ok (String.ofList rest)
  | _ => .ok field

/-- Drops a byte order mark at the start of a row. -/
def unmark : List Field → Outcome Float (List Field)
  | some field :: rest => return some (← dropMark field) :: rest
  | row => .ok row

/-- The rows that are more than one blank field.  A first row with nothing but
a byte order mark still counts for the number of fields. -/
def ofLines (rows : List (List Field)) : Outcome Float Rows :=
  match rows with
  | [] => .ok (ofList [])
  | first :: rest =>
    if isKept first then do
      let first ← unmark first
      return ⟨first.length, (first :: rest).filter isKept⟩
    else .ok (ofList (rest.filter isKept))

/-- The lines of a text behind the characters of an open one, which are last
first. -/
def linesFrom (line : List Char) : List Char → List (List Char)
  | [] => if line.isEmpty then [] else [line.reverse]
  | '\r' :: '\n' :: rest => line.reverse :: linesFrom [] rest
  | c :: rest =>
    if Scanner.isLineEnd c then line.reverse :: linesFrom [] rest
    else linesFrom (c :: line) rest

/-- The lines of a text.  A text without a character has one line. -/
def lines (text : List Char) : List (List Char) :=
  if text.isEmpty then [[]] else linesFrom [] text

/-- The rows of a text that is cut by a pattern. -/
def cut (p : Pattern) (text : List Char) : Outcome Float Rows :=
  ofLines ((lines text).map fun line => p.split (String.ofList (Decimal.trimBlanks line)))

/-- The rows of a text with strict quotes. -/
def strict (separator : Char) (text : List Char) : Outcome Float Rows := do
  let (rows, isWhole) := Strict.rows separator text
  let rows ← ofLines (rows.map (·.map some))
  if isWhole then return rows else throw .malformedRows

end Rows

end LatentFactors.Text.Delimited
