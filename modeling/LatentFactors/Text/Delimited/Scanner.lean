import LatentFactors.Text.Delimited.Draft

/-!
# Rows with quoted fields

`Scanner` reads a text whose fields are separated by one character, or by
blanks.  A field may be quoted, and two quotes inside a quoted field stand for
one; characters behind the closing quote belong to the field.  A line ends in
a line feed, in a carriage return, or in both.

Lines of nothing but blanks are skipped.  There are three exceptions where
lines end in carriage returns:

* A separator right behind the carriage return of a skipped line is skipped
  as well.
* If skipped lines that end in carriage returns are followed by a line that
  starts with blanks, they are rows after all (`Scanner.reread`).
* Where blanks separate, a line of blanks behind a row that ends in a carriage
  return is a row without fields.
-/

namespace LatentFactors.Text.Delimited

/-- What separates the fields of a row. -/
inductive Separation where
  | char (c : Char)
  /-- One blank or several ones. -/
  | blanks
  deriving DecidableEq, Repr

namespace Separation

/-- Whether a character is a blank or a tabulator. -/
def isBlank (c : Char) : Bool := c == ' ' || c == '\t'

/-- Whether a character separates fields. -/
def contains : Separation → Char → Bool
  | char d, c => c == d
  | blanks, c => isBlank c

/-- Whether blanks before a field belong to it. -/
def keepsBlanks : Separation → Bool
  | char _ => true
  | blanks => false

end Separation

/-- Where a scanner stands. -/
inductive Place where
  | lineStart
  /-- After nothing but blanks in a line. -/
  | blankLine
  /-- After a skipped line that ends in a carriage return. -/
  | afterSkipped
  /-- After a row that ends in a carriage return. -/
  | afterReturn
  | fieldStart
  | bare
  | quoted
  /-- After a quote inside a quoted field. -/
  | afterQuote
  /-- After blanks that separate fields. -/
  | afterBlanks
  deriving DecidableEq, Repr

/-- A scanner, with the characters of skipped lines that end in carriage
returns and the blanks behind them, the last ones first. -/
structure Scanner where
  place : Place
  draft : Draft
  skipped : List Char
  deriving DecidableEq, Repr

namespace Scanner

/-- The scanner before a text. -/
def start : Scanner := ⟨.lineStart, .empty, []⟩

/-- A scanner that has skipped nothing. -/
def reading (place : Place) (draft : Draft) : Scanner := ⟨place, draft, []⟩

/-- Skips a character at the start of a line. -/
def skip (s : Scanner) (place : Place) (c : Char) : Scanner :=
  { s with place, skipped := c :: s.skipped }

/-- Whether a character ends a line. -/
def isLineEnd (c : Char) : Bool := c == '\n' || c == '\r'

/-- Completes a row at the end of its line. -/
def endLine (draft : Draft) (c : Char) : Scanner :=
  reading (if c == '\r' then .afterReturn else .lineStart) draft.endRow

/-- Reads a separator where no field has started. -/
def separate (separation : Separation) (draft : Draft) : Scanner :=
  if separation.keepsBlanks then reading .fieldStart draft.endField
  else reading .afterBlanks draft

/-- Reads a character that ends a field. -/
def endField (separation : Separation) (draft : Draft) (c : Char) : Scanner :=
  if isLineEnd c then endLine draft.endField c
  else reading (if separation.keepsBlanks then .fieldStart else .afterBlanks) draft.endField

/-- Reads a character where a field may start. -/
def atFieldStart (separation : Separation) (draft : Draft) (c : Char) : Scanner :=
  if isLineEnd c then endField separation draft c
  else if c == '"' then reading .quoted draft
  else if separation.contains c then separate separation draft
  else reading .bare (draft.add c)

/-- Reads a character in or before a field. -/
def inRow (separation : Separation) (s : Scanner) (c : Char) : Scanner :=
  let ends := isLineEnd c || separation.contains c
  match s.place with
  | .quoted =>
    if c == '"' then reading .afterQuote s.draft else reading .quoted (s.draft.add c)
  | .afterQuote =>
    if c == '"' then reading .quoted (s.draft.add c)
    else if ends then endField separation s.draft c
    else reading .bare (s.draft.add c)
  | .bare => if ends then endField separation s.draft c else reading .bare (s.draft.add c)
  | .afterReturn =>
    if separation.contains c then separate separation s.draft
    else atFieldStart separation s.draft c
  | .lineStart | .blankLine | .afterSkipped | .fieldStart | .afterBlanks =>
    atFieldStart separation s.draft c

/-- Reads characters of lines that have been skipped as those of rows. -/
def reread (separation : Separation) (s : Scanner) (cs : List Char) : Scanner :=
  cs.foldl (inRow separation) (reading .fieldStart s.draft)

/-- Reads a character at the start of a line. -/
def atLineStart (separation : Separation) (s : Scanner) (c : Char) : Scanner :=
  if c == '\n' then reading .lineStart s.draft
  else if c == '\r' then s.skip .afterSkipped c
  else if Separation.isBlank c && separation != .char c then s.skip .blankLine c
  else if s.place == .blankLine && separation.keepsBlanks then
    s.reread separation (c :: s.skipped).reverse
  else s.inRow separation c

/-- Reads one character. -/
def step (separation : Separation) (s : Scanner) (c : Char) : Scanner :=
  match s.place with
  | .lineStart | .blankLine => s.atLineStart separation c
  | .afterSkipped =>
    if c == '\n' then reading .lineStart s.draft
    else if separation.contains c then s.skip .lineStart c
    else s.atLineStart separation c
  | .afterReturn =>
    if c == '\n' then reading .lineStart s.draft
    else if separation.contains c then s.inRow separation c
    else (reading .lineStart s.draft).atLineStart separation c
  | .afterBlanks =>
    if isLineEnd c then endLine s.draft c
    else if Separation.isBlank c then s
    else s.inRow separation c
  | .fieldStart | .bare | .quoted | .afterQuote => s.inRow separation c

/-- The rows at the end of a text, unless a quote is still open. -/
def finish? (s : Scanner) : Option (List (List String)) :=
  match s.place with
  | .quoted => none
  | .lineStart | .blankLine | .afterSkipped | .afterReturn => some s.draft.toRows
  | .afterBlanks => some s.draft.endRow.toRows
  | .fieldStart | .bare | .afterQuote => some s.draft.endField.endRow.toRows

/-- The rows of a text, unless a quote is left open. -/
def rows? (separation : Separation) (text : List Char) : Option (List (List String)) :=
  (text.foldl (step separation) start).finish?

end Scanner

end LatentFactors.Text.Delimited
