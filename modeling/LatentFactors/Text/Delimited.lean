import LatentFactors.Text.Delimited.Guess
import LatentFactors.Text.Delimited.Rows

/-!
# Delimited texts

A delimited text has one row in each line and a separator between the fields
of a row.  `Rows` holds its rows, `columns` lines the fields up under their
names, and `Guess` decides what a column holds.

Short rows are filled up: with words that say that a value is missing where
fields may be quoted, and with absent fields otherwise.
-/

namespace LatentFactors.Text.Delimited

/-- Lines the fields up under names.  If the first row has more fields than
there are names, its first fields are left over and dropped in every row.  A
later row must not be longer than both; short rows are filled up. -/
def columns (names : List String) (filler : Field) (guess : List Field → Column Float)
    (rows : Rows) : Outcome Float (Frame Float) :=
  let extra := rows.width - names.length
  if rows.rows.any (names.length + extra < ·.length) then .error .malformedRows
  else
    let lined := rows.rows.map fun row => (row.drop extra).toArray
    .ok ⟨⟨names.zipIdx.map fun (name, i) =>
      (name, guess (lined.map fun row => row.getD i filler))⟩⟩

/-- Refuses a separator that ends lines, and names of which two are equal. -/
def check (names : List String) (separator : String) : Outcome Float Unit :=
  if separator == "\n" then .error .unusableSeparator
  else
    match names.find? fun name => 1 < names.count name with
    | some name => .error (.repeatedColumn name)
    | none => .ok ()

/-- Reads a text with the given names for its columns. -/
def read (names : List String) (separator text : String) : Outcome Float (Frame Float) := do
  match ← Separator.ofText separator with
  | .scanned separation =>
    let ofWords (fields : List Field) : Column Float := Guess.ofWords (fields.map (·.getD ""))
    columns names (some "") ofWords (← Rows.scan separation text.toList)
  | .strict c => columns names none Guess.ofFields (← Rows.strict c text.toList)
  | .pattern p => columns names none Guess.ofFields (← Rows.cut p text.toList)

end LatentFactors.Text.Delimited
