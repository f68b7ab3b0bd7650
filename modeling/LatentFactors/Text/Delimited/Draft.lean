/-!
# Rows that are being read

A `Draft` holds the rows, the fields of a row and the characters of a field
that a scanner has read so far, each of them last first.
-/

namespace LatentFactors.Text.Delimited

/-- The rows, fields and characters read so far, last first. -/
structure Draft where
  rows : List (List String)
  fields : List String
  field : List Char
  deriving DecidableEq, Repr

namespace Draft

/-- Nothing read. -/
def empty : Draft := ⟨[], [], []⟩

/-- Adds a character to the field. -/
def add (d : Draft) (c : Char) : Draft := { d with field := c :: d.field }

/-- Completes the field. -/
def endField (d : Draft) : Draft :=
  { d with fields := String.ofList d.field.reverse :: d.fields, field := [] }

/-- Completes the row. -/
def endRow (d : Draft) : Draft := { d with rows := d.fields.reverse :: d.rows, fields := [] }

/-- The rows in their order. -/
def toRows (d : Draft) : List (List String) := d.rows.reverse

/-- A completed row comes last. -/
theorem toRows_endRow (d : Draft) : d.endRow.toRows = d.toRows ++ [d.fields.reverse] := by
  simp [toRows, endRow]

end Draft

end LatentFactors.Text.Delimited
