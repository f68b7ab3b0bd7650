import LatentFactors.Text.Delimited.Draft

/-!
# Rows with strict quotes

`Strict.rows` reads a text whose fields are separated by one character.  A
field may be quoted, and two quotes inside a quoted field stand for one.  A
closing quote has to end its field, or the text ends before this row.

A line ends in a line feed, in a carriage return, or in both.  An empty line
is a row without fields.
-/

namespace LatentFactors.Text.Delimited.Strict

/-- Where a scanner stands. -/
inductive Place where
  | lineStart
  /-- After a row that ends in a carriage return. -/
  | afterReturn
  | fieldStart
  | bare
  | quoted
  /-- After a quote inside a quoted field. -/
  | afterQuote
  /-- After a misplaced quote. -/
  | broken
  deriving DecidableEq, Repr

/-- A scanner. -/
structure Scanner where
  place : Place
  draft : Draft
  deriving DecidableEq, Repr

namespace Scanner

/-- The scanner before a text. -/
def start : Scanner := ⟨.lineStart, .empty⟩

/-- Completes a row at the end of its line. -/
def endLine (draft : Draft) (c : Char) : Scanner :=
  ⟨if c == '\r' then .afterReturn else .lineStart, draft.endRow⟩

/-- Reads a character that may end a field, or else goes on to a place. -/
def outside (separator : Char) (s : Scanner) (c : Char) (otherwise : Scanner) : Scanner :=
  if c == '\n' || c == '\r' then endLine s.draft.endField c
  else if c == separator then ⟨.fieldStart, s.draft.endField⟩
  else otherwise

/-- Reads a character at the start of a field. -/
def atFieldStart (separator : Char) (s : Scanner) (c : Char) : Scanner :=
  s.outside separator c (if c == '"' then ⟨.quoted, s.draft⟩ else ⟨.bare, s.draft.add c⟩)

/-- Reads a character at the start of a line. -/
def atLineStart (separator : Char) (s : Scanner) (c : Char) : Scanner :=
  if c == '\n' || c == '\r' then endLine s.draft c else s.atFieldStart separator c

/-- Reads one character. -/
def step (separator : Char) (s : Scanner) (c : Char) : Scanner :=
  match s.place with
  | .lineStart => s.atLineStart separator c
  | .afterReturn =>
    if c == '\n' then ⟨.lineStart, s.draft⟩ else s.atLineStart separator c
  | .fieldStart => s.atFieldStart separator c
  | .bare => s.outside separator c ⟨.bare, s.draft.add c⟩
  | .quoted => if c == '"' then ⟨.afterQuote, s.draft⟩ else ⟨.quoted, s.draft.add c⟩
  | .afterQuote =>
    if c == '"' then ⟨.quoted, s.draft.add c⟩ else s.outside separator c ⟨.broken, s.draft⟩
  | .broken => s

/-- The rows at the end of a text, and whether all of it has been read. -/
def finish (s : Scanner) : List (List String) × Bool :=
  match s.place with
  | .quoted | .broken => (s.draft.toRows, false)
  | .lineStart | .afterReturn => (s.draft.toRows, true)
  | .fieldStart | .bare | .afterQuote => (s.draft.endField.endRow.toRows, true)

end Scanner

/-- The rows of a text up to a misplaced quote, and whether there is none. -/
def rows (separator : Char) (text : List Char) : List (List String) × Bool :=
  (text.foldl (Scanner.step separator) .start).finish

end LatentFactors.Text.Delimited.Strict
