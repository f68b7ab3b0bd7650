import LatentFactors.Decimal.Digit

/-!
# Reading decimal numbers

`Spelling.scan` takes the longest unsigned decimal off the front of a text:
digits, perhaps a point and more digits, perhaps an exponent.  Which
spellings are numbers is up to the format that is read, so the parts stay
apart until `Spelling.value`.

`readReal` and `readInteger` read a whole text as one number, as the options
of a command are read: blanks around it, a sign, single underscores between
digits and the digits of any script are allowed.  An integer with more than
`maxDigits` digits is refused.
-/

namespace LatentFactors.Decimal

/-- The parts of an unsigned decimal number.  An exponent has a flag for its
minus sign. -/
structure Spelling where
  whole : List Char
  fraction : Option (List Char)
  exponent : Option (Bool × List Char)
  deriving DecidableEq, Repr

/-- The number that a list of decimal digits stands for. -/
def ofDigits (ds : List Char) : Nat :=
  ds.foldl (fun n d => 10 * n + (d.toNat - '0'.toNat)) 0

namespace Spelling

/-- Takes an exponent off the front of a text that starts with its mark. -/
def scanExponent : List Char → Option (Bool × List Char) × List Char
  | mark :: rest =>
    if mark == 'e' || mark == 'E' then
      let (negative, unsigned) := match rest with
        | '-' :: tail => (true, tail)
        | '+' :: tail => (false, tail)
        | tail => (false, tail)
      (some (negative, unsigned.takeWhile Char.isDigit), unsigned.dropWhile Char.isDigit)
    else (none, mark :: rest)
  | [] => (none, [])

/-- Takes the longest unsigned decimal off the front of a text. -/
def scan (text : List Char) : Spelling × List Char :=
  let whole := text.takeWhile Char.isDigit
  match text.dropWhile Char.isDigit with
  | '.' :: tail =>
    let (exponent, rest) := scanExponent (tail.dropWhile Char.isDigit)
    (⟨whole, some (tail.takeWhile Char.isDigit), exponent⟩, rest)
  | tail =>
    let (exponent, rest) := scanExponent tail
    (⟨whole, none, exponent⟩, rest)

/-- Whether the spelling has neither a point nor an exponent. -/
def isInteger (s : Spelling) : Bool := s.fraction.isNone && s.exponent.isNone

/-- Whether there is a digit before or after the point, and one in the
exponent if there is an exponent. -/
def isComplete (s : Spelling) : Bool :=
  !(s.whole ++ s.fraction.getD []).isEmpty && s.exponent.all (!·.2.isEmpty)

/-- The floating-point number nearest to `mantissa * 10 ^ power`.  The powers
that overflow or vanish for every mantissa of this length are not computed. -/
def nearest (mantissa : Nat) (power : Int) : Float :=
  let size : Int := (Nat.toDigits 10 mantissa).length
  if mantissa == 0 then 0
  else if power > 400 then Float.ofScientific 1 false 400
  else if power + size < -400 then 0
  else Float.ofScientific mantissa (power < 0) power.natAbs

end Spelling

/-- Splits a leading sign off a text. -/
def splitSign : List Char → Bool × List Char
  | '-' :: rest => (true, rest)
  | '+' :: rest => (false, rest)
  | rest => (false, rest)

/-! ## Exact values -/

/-- A decimal number: `mantissa * 10 ^ power`, below zero when `negative`. -/
structure Signed where
  negative : Bool
  mantissa : Nat
  power : Int
  deriving DecidableEq, Repr

namespace Signed

/-- The exact value of a spelling. -/
def ofSpelling (negative : Bool) (s : Spelling) : Signed :=
  let fraction := s.fraction.getD []
  let written : Int := match s.exponent with
    | some (below, ds) => if below then -(ofDigits ds : Int) else ofDigits ds
    | none => 0
  ⟨negative, ofDigits (s.whole ++ fraction), written - fraction.length⟩

/-- The exact value of a whole text, if it is a number. -/
def ofText? (text : String) : Option Signed :=
  let (negative, unsigned) := splitSign text.toList
  let (s, rest) := Spelling.scan unsigned
  if s.isComplete && rest.isEmpty then some (ofSpelling negative s) else none

/-- The value times `10 ^ shift`, for a shift that makes it an integer. -/
def scaled (x : Signed) (shift : Int) : Int :=
  let magnitude : Int := x.mantissa * Nat.pow 10 (x.power + shift).toNat
  if x.negative then -magnitude else magnitude

/-- Whether a number is below another one or equal to it. -/
def atMost (x y : Signed) : Bool :=
  let shift := max (-x.power) (-y.power)
  x.scaled shift ≤ y.scaled shift

end Signed

/-- The floating-point number that a spelling stands for. -/
def Spelling.value (s : Spelling) : Float :=
  let exact := Signed.ofSpelling false s
  nearest exact.mantissa exact.power

/-! ## Reading whole texts -/

/-- The blanks that may stand around a number. -/
def isBlank (c : Char) : Bool :=
  let n := c.toNat
  (9 ≤ n && n ≤ 13) || (28 ≤ n && n ≤ 32) || n == 0x85 || n == 0xa0 || n == 0x1680 ||
    (0x2000 ≤ n && n ≤ 0x200a) || n == 0x2028 || n == 0x2029 || n == 0x202f ||
    n == 0x205f || n == 0x3000

/-- Drops the blanks at both ends. -/
def trimBlanks (text : List Char) : List Char :=
  ((text.dropWhile isBlank).reverse.dropWhile isBlank).reverse

/-- Drops the underscores between digits; an underscore elsewhere is refused.
`afterDigit` tells whether the character before was a digit. -/
def dropUnderscores (afterDigit : Bool) : List Char → Option (List Char)
  | [] => some []
  | '_' :: d :: rest =>
    if afterDigit && d.isDigit then (d :: ·) <$> dropUnderscores true rest else none
  | c :: rest =>
    if c == '_' then none else (c :: ·) <$> dropUnderscores c.isDigit rest

/-- The characters of a number in a text: without the blanks around it and
the underscores between digits, and with digits of common use. -/
def numberChars (text : String) : Option (List Char) :=
  dropUnderscores false ((trimBlanks text.toList).map plain)

/-- Reads a whole text as a number; infinity and not-a-number may be spelled
out in letters of either case. -/
def readReal (text : String) : Option Float := do
  let (negative, unsigned) := splitSign (← numberChars text)
  let word := String.ofList (unsigned.map Char.toLower)
  let magnitude ←
    if word == "inf" || word == "infinity" then some (1 / 0)
    else if word == "nan" then some (0 / 0)
    else
      let (s, rest) := Spelling.scan unsigned
      if s.isComplete && rest.isEmpty then some s.value else none
  return if negative then -magnitude else magnitude

/-- The number of digits up to which integers are read. -/
def maxDigits : Nat := 4300

/-- Reads a whole text as an integer. -/
def readInteger (text : String) : Option Int := do
  let (negative, ds) := splitSign (← numberChars text)
  if ds.isEmpty || !ds.all Char.isDigit || ds.length > maxDigits then none
  else
    let n : Int := ofDigits ds
    return if negative then -n else n

end LatentFactors.Decimal
