import LatentFactors.Decimal.Spelling
import LatentFactors.Numeral

/-!
# The tokens of JSON texts

`Token.scan` cuts a text into tokens.  Blanks between tokens are dropped, and
everything else has to be a mark, a quoted text, a number or a word.  Where
it is none, the tokens end with `Token.unknown`.

A number without a point and an exponent is an integer; one with more digits
than are read is the token `Token.longInteger`.  Besides the numbers that
JSON has, the words `NaN`, `Infinity` and `-Infinity` are read.  Two escaped
surrogates in a row are one character, and a lone surrogate becomes the
replacement character.
-/

namespace LatentFactors.Text.Json

/-- A token of a JSON text. -/
inductive Token where
  | openArray
  | closeArray
  | openObject
  | closeObject
  | comma
  | colon
  | null
  | bool (b : Bool)
  | number (n : Numeral Float)
  | string (s : String)
  /-- An integer with too many digits. -/
  | longInteger
  /-- What no token is written as.  Nothing after it is read. -/
  | unknown
  deriving DecidableEq, Repr

/-- Blanks between tokens. -/
def isBlank (c : Char) : Bool := c == ' ' || c == '\t' || c == '\n' || c == '\r'

/-- The characters of numbers and words. -/
def isWordChar (c : Char) : Bool := c.isAlphanum || c == '+' || c == '-' || c == '.'

/-- The token of a mark. -/
def mark? : Char → Option Token
  | '[' => some .openArray
  | ']' => some .closeArray
  | '\x7b' => some .openObject
  | '\x7d' => some .closeObject
  | ',' => some .comma
  | ':' => some .colon
  | _ => none

/-! ## Quoted texts -/

/-- The value of a hexadecimal digit. -/
def hexDigit? (c : Char) : Option Nat :=
  if c.isDigit then some (c.toNat - '0'.toNat)
  else if 'a' ≤ c && c ≤ 'f' then some (c.toNat - 'a'.toNat + 10)
  else if 'A' ≤ c && c ≤ 'F' then some (c.toNat - 'A'.toNat + 10)
  else none

/-- The value of some hexadecimal digits. -/
def hexValue? (ds : List Char) : Option Nat :=
  ds.foldlM (fun n d => do return 16 * n + (← hexDigit? d)) 0

/-- The character that a letter after a backslash stands for. -/
def escaped? : Char → Option Char
  | '"' => some '"'
  | '\\' => some '\\'
  | '/' => some '/'
  | 'b' => some '\x08'
  | 'f' => some '\x0c'
  | 'n' => some '\n'
  | 'r' => some '\r'
  | 't' => some '\t'
  | _ => none

/-- Reads up to the closing quote.  The result lists code points, among which
escaped surrogates still stand apart, and what comes after the quote. -/
def scanQuoted : List Char → Option (List Nat × List Char)
  | [] => none
  | '"' :: rest => some ([], rest)
  | '\\' :: 'u' :: a :: b :: c :: d :: rest => do
    let unit ← hexValue? [a, b, c, d]
    let (units, tail) ← scanQuoted rest
    return (unit :: units, tail)
  | '\\' :: letter :: rest => do
    let c ← escaped? letter
    let (units, tail) ← scanQuoted rest
    return (c.toNat :: units, tail)
  | c :: rest =>
    if c == '\\' || c.toNat < 32 then none
    else do
      let (units, tail) ← scanQuoted rest
      return (c.toNat :: units, tail)

/-- A quoted text is not longer than what it is read from. -/
theorem length_of_scanQuoted (cs : List Char) :
    ∀ units tail, scanQuoted cs = some (units, tail) → tail.length ≤ cs.length := by
  fun_induction scanQuoted cs with
  | case1 => simp
  | case2 rest =>
    rintro units tail h
    simp only [Option.some.injEq, Prod.mk.injEq] at h
    simp [h.2]
  | case3 a b c d rest ih =>
    rintro units tail h
    simp only [Option.bind_eq_bind, Option.bind_eq_some_iff, Option.pure_def,
      Option.some.injEq, Prod.mk.injEq] at h
    obtain ⟨_, _, ⟨us, ts⟩, hs, _, rfl⟩ := h
    have := ih _ _ hs
    simp only [List.length_cons]
    omega
  | case4 letter rest _ ih =>
    rintro units tail h
    simp only [Option.bind_eq_bind, Option.bind_eq_some_iff, Option.pure_def,
      Option.some.injEq, Prod.mk.injEq] at h
    obtain ⟨_, _, ⟨us, ts⟩, hs, _, rfl⟩ := h
    have := ih _ _ hs
    simp only [List.length_cons]
    omega
  | case5 c rest => simp
  | case6 c rest _ _ _ _ ih =>
    rintro units tail h
    simp only [Option.bind_eq_bind, Option.bind_eq_some_iff, Option.pure_def,
      Option.some.injEq, Prod.mk.injEq] at h
    obtain ⟨⟨us, ts⟩, hs, _, rfl⟩ := h
    have := ih _ _ hs
    simp only [List.length_cons]
    omega

/-- Whether a code point is the first half of a pair of surrogates. -/
def isHighSurrogate (n : Nat) : Bool := 0xd800 ≤ n && n < 0xdc00

/-- Whether a code point is the second half of a pair of surrogates. -/
def isLowSurrogate (n : Nat) : Bool := 0xdc00 ≤ n && n < 0xe000

/-- The character of a code point that is not part of a pair. -/
def charOf (n : Nat) : Char :=
  if isHighSurrogate n || isLowSurrogate n then '\ufffd' else Char.ofNat n

/-- Joins pairs of surrogates. -/
def joinSurrogates : List Nat → List Char
  | [] => []
  | [n] => [charOf n]
  | high :: low :: rest =>
    if isHighSurrogate high && isLowSurrogate low then
      Char.ofNat (0x10000 + (high - 0xd800) * 0x400 + (low - 0xdc00)) :: joinSurrogates rest
    else charOf high :: joinSurrogates (low :: rest)

/-! ## Numbers and words -/

/-- Whether an unsigned number is spelled as JSON spells it: no leading zero,
and digits on both sides of a point and in an exponent. -/
def isJsonNumber (s : Decimal.Spelling) : Bool :=
  !s.whole.isEmpty && (s.whole.length == 1 || s.whole.head? != some '0') &&
    s.fraction.all (!·.isEmpty) && s.exponent.all (!·.2.isEmpty)

/-- The token of a number.  An integer with too many digits is one even where
it does not end the word. -/
def Token.ofNumber (word : List Char) : Token :=
  let (negative, unsigned) := match word with
    | '-' :: rest => (true, rest)
    | rest => (false, rest)
  let (s, rest) := Decimal.Spelling.scan unsigned
  if !isJsonNumber s then .unknown
  else if s.isInteger && s.whole.length > Decimal.maxDigits then .longInteger
  else if !rest.isEmpty then .unknown
  else if s.isInteger then
    let n : Int := Decimal.ofDigits s.whole
    .number (.integer (if negative then -n else n))
  else .number (.real (if negative then -s.value else s.value))

/-- The token of a number or a word. -/
def Token.ofWord (cs : List Char) : Token :=
  match String.ofList cs with
  | "null" => .null
  | "true" => .bool true
  | "false" => .bool false
  | "NaN" => .number (.real (0 / 0))
  | "Infinity" => .number (.real (1 / 0))
  | "-Infinity" => .number (.real (-1 / 0))
  | _ => ofNumber cs

/-- Cuts a text into tokens, up to something that is none. -/
def Token.scan : List Char → List Token
  | [] => []
  | c :: rest =>
    if isBlank c then scan rest
    else if c == '"' then
      match h : scanQuoted rest with
      | none => [.unknown]
      | some (units, tail) =>
        have _ := length_of_scanQuoted rest units tail h
        .string (String.ofList (joinSurrogates units)) :: scan tail
    else if isWordChar c then
      match ofWord (c :: rest.takeWhile isWordChar) with
      | .unknown => [.unknown]
      | token => token :: scan (rest.dropWhile isWordChar)
    else
      match mark? c with
      | none => [.unknown]
      | some token => token :: scan rest
termination_by cs => cs.length
decreasing_by
  · simp
  · simp only [List.length_cons]
    omega
  · have := (List.dropWhile_suffix (l := rest) isWordChar).length_le
    simp only [List.length_cons]
    omega
  · simp

end LatentFactors.Text.Json
