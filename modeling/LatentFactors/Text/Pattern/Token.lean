import LatentFactors.Text.Pattern.Basic

/-!
# Tokens of written patterns

A written pattern is a row of characters, of which some are escaped by a
backslash.  An escaped letter stands for a kind of characters or a condition,
or it is not allowed; any other escaped character stands for itself.  A
character can also be escaped by its code point in digits.
-/

namespace LatentFactors.Text.Pattern

/-- Why a text is no pattern. -/
inductive Problem where
  | malformed
  /-- A repetition with a count beyond all limits. -/
  | hugeCount
  /-- A pattern for plain characters and for those of all scripts. -/
  | mixedAlphabets
  deriving DecidableEq, Repr

/-- A character of a written pattern. -/
inductive Token where
  | plain (c : Char)
  | escaped (c : Char)
  /-- A backslash at the end. -/
  | dangling
  deriving DecidableEq, Repr

namespace Token

/-- The tokens of a written pattern. -/
def ofChars : List Char → List Token
  | [] => []
  | '\\' :: c :: rest => escaped c :: ofChars rest
  | c :: rest => (if c == '\\' then dangling else plain c) :: ofChars rest

/-- The text of a token. -/
def chars : Token → List Char
  | plain c => [c]
  | escaped c => ['\\', c]
  | dangling => ['\\']

/-- Nothing of a written pattern is lost. -/
theorem flatMap_chars_ofChars (cs : List Char) : (ofChars cs).flatMap chars = cs := by
  fun_induction ofChars cs with
  | case1 => rfl
  | case2 c rest ih => simp [chars, ih]
  | case3 c rest hne ih =>
    by_cases hc : c = '\\'
    · simp [chars, ih, hc]
    · simp [chars, ih, hc]

/-- Takes at most so many plain characters of a class off the front. -/
def takeChars (p : Char → Bool) : Nat → List Token → List Char × List Token
  | n + 1, plain c :: rest =>
    if p c then
      let (cs, rest) := takeChars p n rest
      (c :: cs, rest)
    else ([], plain c :: rest)
  | _, tokens => ([], tokens)

/-- Takes all tokens before a plain character off the front, with the
character. -/
def takeUntil (stop : Char) : List Token → Except Problem (List Token × List Token)
  | [] => .error .malformed
  | t :: rest =>
    if t == plain stop then .ok ([], rest)
    else (takeUntil stop rest).map fun (ts, rest) => (t :: ts, rest)

end Token

/-! ## Escaped characters -/

/-- The value of a digit in a number with a base of at most sixteen. -/
def digitValue (c : Char) : Nat :=
  if c.isDigit then c.toNat - 48 else (Folding.lowerPlain c.toNat) - 87

/-- The number that some digits stand for. -/
def numberOf (base : Nat) (ds : List Char) : Nat :=
  ds.foldl (fun n d => base * n + digitValue d) 0

/-- Whether a character is a digit of a number with base eight. -/
def isOctal (c : Char) : Bool := '0' ≤ c && c ≤ '7'

/-- Whether a character is a digit of a number with base sixteen. -/
def isHexadecimal (c : Char) : Bool :=
  c.isDigit || ('a' ≤ c && c ≤ 'f') || ('A' ≤ c && c ≤ 'F')

/-- The largest code point. -/
def lastCodePoint : Nat := 0x10ffff

/-- Reads the code point of so many digits with base sixteen. -/
def hexadecimal (count : Nat) (rest : List Token) : Except Problem (Nat × List Token) :=
  let (ds, rest) := Token.takeChars isHexadecimal count rest
  let n := numberOf 16 ds
  if ds.length < count || lastCodePoint < n then .error .malformed else .ok (n, rest)

/-- Reads the code point of digits with base eight, after the first of them. -/
def octal (first : Char) (rest : List Token) : Except Problem (Nat × List Token) :=
  let (ds, rest) := Token.takeChars isOctal 2 rest
  let n := numberOf 8 (first :: ds)
  if 0o377 < n then .error .malformed else .ok (n, rest)

/-- The control characters that are escaped by a letter. -/
def controls : List (Char × Nat) :=
  [('a', 7), ('f', 12), ('n', 10), ('r', 13), ('t', 9), ('v', 11)]

/-- Reads the code point of an escaped character, which may go on in the
text. -/
def escapedCode (c : Char) (rest : List Token) : Except Problem (Nat × List Token) :=
  match controls.lookup c with
  | some n => .ok (n, rest)
  | none =>
    if c == 'x' then hexadecimal 2 rest
    else if c == 'u' then hexadecimal 4 rest
    else if c == 'U' then hexadecimal 8 rest
    else if c.isAlphanum then .error .malformed
    else .ok (c.toNat, rest)

/-- The kind of characters that an escaped letter stands for; its capital
stands for all others. -/
def escapedKind? (isPlain : Bool) (c : Char) : Option CharSet.Member :=
  let kinds : List (Char × CharKind) := [('d', .digit), ('s', .blank), ('w', .word)]
  (kinds.lookup c.toLower).map fun kind => .ofKind kind isPlain c.isUpper

/-- The condition that an escaped letter stands for. -/
def escapedAnchor? (isPlain : Bool) (c : Char) : Option Anchor :=
  match c with
  | 'A' => some .textStart
  | 'Z' => some .textEnd
  | 'b' => some (.wordEdge isPlain)
  | 'B' => some (.noWordEdge isPlain)
  | _ => none

/-! ## Sets -/

/-- Reads a member of a set of characters; a code point counts as the range of
itself. -/
def setMember (isPlain : Bool) : List Token →
    Except Problem (CharSet.Member × List Token)
  | [] | .dangling :: _ => .error .malformed
  | .plain c :: rest => .ok (.range c.toNat c.toNat, rest)
  | .escaped c :: rest =>
    match escapedKind? isPlain c with
    | some member => .ok (member, rest)
    | none =>
      if c == 'b' then .ok (.range 8 8, rest)
      else do
        let (n, rest) ← if isOctal c then octal c rest else escapedCode c rest
        return (.range n n, rest)

/-- The range between two members that are one code point each. -/
def rangeBetween : CharSet.Member → CharSet.Member → Except Problem CharSet.Member
  | .range first _, .range last _ =>
    if last < first then .error .malformed else .ok (.range first last)
  | _, _ => .error .malformed

/-- Reads one member of a set, or a range between two of them. -/
def setRange (isPlain : Bool) (tokens : List Token) :
    Except Problem (List CharSet.Member × List Token) := do
  let (member, rest) ← setMember isPlain tokens
  match rest with
  | .plain '-' :: .plain ']' :: _ => return ([member], rest)
  | .plain '-' :: rest =>
    let (last, rest) ← setMember isPlain rest
    return ([← rangeBetween member last], rest)
  | rest => return ([member], rest)

/-- Reads the members of a set up to the bracket that closes it.  A bracket in
the first place is a member. -/
def setMembers (isPlain : Bool) (isFirst : Bool) (tokens : List Token) :
    Except Problem (List CharSet.Member × List Token) :=
  if !isFirst && tokens.head? == some (.plain ']') then .ok ([], tokens.tail)
  else
    match setRange isPlain tokens with
    | .error problem => .error problem
    | .ok (members, rest) =>
      if rest.length < tokens.length then
        (setMembers isPlain false rest).map fun (more, rest) => (members ++ more, rest)
      else .error .malformed
termination_by tokens.length

/-- Reads a set of characters behind the bracket that opens it. -/
def charSet (isPlain : Bool) (folding : Folding) (tokens : List Token) :
    Except Problem (CharSet × List Token) := do
  let (isOutside, tokens) := match tokens with
    | .plain '^' :: rest => (true, rest)
    | tokens => (false, tokens)
  let (members, rest) ← setMembers isPlain true tokens
  return (⟨members, isOutside, folding⟩, rest)

end LatentFactors.Text.Pattern
