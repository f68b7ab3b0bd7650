import LatentFactors.Decimal.Spelling
import LatentFactors.Word

/-!
# The words of a column

The fields of a delimited text are words: some of them say that a value is
missing, others are integers, numbers or truth values.  Blanks around an
integer or a number do not count, but those around the word for infinity do.
-/

namespace LatentFactors.Text.Delimited

/-- The words for a missing value. -/
def missingWords : List String :=
  ["", "#N/A", "#N/A N/A", "#NA", "-1.#IND", "-1.#QNAN", "-NaN", "-nan", "1.#IND",
    "1.#QNAN", "<NA>", "N/A", "NA", "NULL", "NaN", "None", "n/a", "nan", "null"]

namespace Word

/-- Whether a word says that a value is missing. -/
def isMissing (word : String) : Bool := missingWords.contains word

/-- Whether a character is a blank that may stand around a number. -/
def isBlank (c : Char) : Bool := c == ' ' || (9 ≤ c.toNat && c.toNat ≤ 13)

/-- Drops the blanks at both ends. -/
def trim (cs : List Char) : List Char :=
  ((cs.dropWhile isBlank).reverse.dropWhile isBlank).reverse

/-- The integer at the start of a word, behind blanks and a sign, and the
characters behind it. -/
def integerPrefix? (word : String) : Option (Int × List Char) :=
  let (negative, unsigned) := Decimal.splitSign (word.toList.dropWhile isBlank)
  let ds := unsigned.takeWhile Char.isDigit
  if ds.isEmpty then none
  else
    let n : Int := Decimal.ofDigits ds
    some (if negative then -n else n, unsigned.drop ds.length)

/-- Reads an integer. -/
def integer? (word : String) : Option Int :=
  match integerPrefix? word with
  | some (n, rest) => if rest.all isBlank then some n else none
  | none => none

/-- Whether a word starts with a minus sign. -/
def isBelowZero (word : String) : Bool := (word.toList.dropWhile isBlank).head? == some '-'

/-- Reads an integer of any length, which may have single underscores between
its digits. -/
def longInteger? (word : String) : Option Int :=
  let isPart (c : Char) : Bool :=
    isBlank c || c.isDigit || c == '_' || c == '+' || c == '-'
  if word.toList.all isPart then Decimal.readInteger word else none

/-- Reads the word for infinity. -/
def infinity? (word : String) : Option Float :=
  let (negative, unsigned) := Decimal.splitSign word.toList
  let name := String.ofList (unsigned.map Char.toLower)
  if name == "inf" || name == "infinity" then some (if negative then -(1 / 0) else 1 / 0)
  else none

/-- Reads a number. -/
def real? (word : String) : Option Float :=
  let (negative, unsigned) := Decimal.splitSign (trim word.toList)
  let (s, rest) := Decimal.Spelling.scan unsigned
  if s.isComplete && rest.isEmpty then some (if negative then -s.value else s.value)
  else infinity? word

/-- Reads a truth value in letters of any case. -/
def flag? (word : String) : Option Bool :=
  let name := String.ofList (word.toList.map Char.toLower)
  if name == "true" then some true else if name == "false" then some false else none

/-- Reads a truth value in small letters, in capital letters, or in small
letters behind a capital one. -/
def plainFlag? (word : String) : Option Bool :=
  if ["true", "TRUE", "True", "false", "FALSE", "False"].contains word then flag? word else none

end Word

end LatentFactors.Text.Delimited
