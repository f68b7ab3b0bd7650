import LatentFactors.Text.Pattern.Token

/-!
# Reading patterns

`Pattern.read` reads a written pattern.  A `Reader` holds the parts read so
far: those of the innermost open bracket and of all around it (`Level`), and
what is known of the groups.  `Reader.element` reads one element off the front
of the tokens.

Flags at the start of a pattern hold for all of it, and flags of a bracket
hold inside it.
-/

namespace LatentFactors.Text.Pattern

/-! ## Flags -/

/-- How the elements of a pattern are to be understood. -/
structure Flags where
  /-- Case does not count. -/
  ignoresCase : Bool
  /-- The start and the end of every line count as those of the text. -/
  hasLines : Bool
  /-- A point also stands for the end of a line. -/
  pointIsAll : Bool
  /-- Blanks and remarks in the pattern do not count. -/
  isSpaced : Bool
  /-- Kinds of characters are limited to plain ones. -/
  isPlain : Bool
  /-- Kinds of characters are said to be those of all scripts. -/
  isFull : Bool
  deriving DecidableEq, Repr

namespace Flags

/-- No flag. -/
def none : Flags := ⟨false, false, false, false, false, false⟩

/-- Which characters are the same. -/
def folding (f : Flags) : Folding :=
  if f.ignoresCase then (if f.isPlain then .plain else .full) else .exact

/-- The letters of flags. -/
def letters : List Char := ['i', 'm', 's', 'x', 'a', 'u', 't']

/-- Sets the flag of a letter.  The last letter has no effect. -/
def set (f : Flags) (isOn : Bool) : Char → Flags
  | 'i' => { f with ignoresCase := isOn }
  | 'm' => { f with hasLines := isOn }
  | 's' => { f with pointIsAll := isOn }
  | 'x' => { f with isSpaced := isOn }
  | 'a' => { f with isPlain := isOn }
  | 'u' => { f with isFull := isOn }
  | _ => f

/-- The flags inside a bracket with letters for flags on and off. -/
def inside (f : Flags) (on off : List Char) : Flags :=
  let f := if on.any ['a', 'u'].contains then { f with isPlain := false, isFull := false } else f
  off.foldl (·.set false ·) (on.foldl (·.set true ·) f)

end Flags

/-! ## Levels -/

/-- What an open bracket makes of the parts inside it. -/
inductive Opening where
  /-- The parts are the whole pattern. -/
  | whole
  | group (index : Nat)
  /-- The parts only. -/
  | parts
  | settled
  | ahead (isWanted : Bool)
  /-- A look behind, and the number of groups that start before it. -/
  | behind (isWanted : Bool) (groups : Nat)
  | given (index : Nat)
  deriving DecidableEq, Repr

/-- What an element can be repeated as. -/
inductive Role where
  | anchor
  | repetition
  | ordinary
  deriving DecidableEq, Repr

/-- The parts of an open bracket, the last one first, and its choices before
them. -/
structure Level where
  opening : Opening
  flags : Flags
  choices : List Node
  parts : List (Role × Node)

namespace Level

/-- A bracket without parts. -/
def opened (opening : Opening) (flags : Flags) : Level := ⟨opening, flags, [], []⟩

/-- The parts since the last choice. -/
def current (l : Level) : Node := .sequence (l.parts.reverse.map (·.2))

/-- All choices. -/
def body (l : Level) : Node := l.choices.foldl (fun node choice => .either choice node) l.current

/-- Adds a part. -/
def add (l : Level) (role : Role) (node : Node) : Level :=
  { l with parts := (role, node) :: l.parts }

/-- Ends a choice. -/
def endChoice (l : Level) : Level := { l with choices := l.current :: l.choices, parts := [] }

end Level

/-! ## Readers -/

/-- What has been read of a pattern. -/
structure Reader where
  level : Level
  outer : List Level
  /-- The number of groups that have been opened. -/
  groups : Nat
  names : List (String × Nat)
  /-- The lengths of the groups that have been closed. -/
  spans : List (Nat × Span)
  /-- The largest group that a choice depends on. -/
  needed : Nat
  /-- A look behind has parts of several lengths. -/
  isUnmeasured : Bool

namespace Reader

/-- The reader before a pattern. -/
def start : Reader := ⟨.opened .whole .none, [], 0, [], [], 0, false⟩

/-- The flags at this place. -/
def flags (r : Reader) : Flags := r.level.flags

/-- Adds a part. -/
def add (r : Reader) (role : Role) (node : Node) : Reader :=
  { r with level := r.level.add role node }

/-- Adds a set of characters. -/
def addSet (r : Reader) (set : CharSet) : Reader := r.add .ordinary (.one set)

/-- Adds a code point. -/
def addCode (r : Reader) (n : Nat) : Reader := r.addSet (.single r.flags.folding n)

/-- Opens a bracket. -/
def enter (r : Reader) (opening : Opening) (flags : Flags) : Reader :=
  { r with level := .opened opening flags, outer := r.level :: r.outer }

/-- The number of groups that start before the outermost open look behind. -/
def groupsBefore? (r : Reader) : Option Nat :=
  (r.level :: r.outer).reverse.findSome? fun l => match l.opening with
    | .behind _ groups => some groups
    | _ => none

/-- Refuses a group that cannot be asked for inside a look behind: one that is
open, or that starts inside it. -/
def checkGroup (r : Reader) (index : Nat) : Except Problem Unit :=
  match r.groupsBefore? with
  | some groups =>
    if (r.spans.lookup index).isNone || groups < index then .error .malformed else .ok ()
  | none => .ok ()

/-- Adds the stretch of a group, which has to be closed. -/
def addAgain (r : Reader) (index : Nat) : Except Problem Reader := do
  if (r.spans.lookup index).isNone then throw .malformed
  r.checkGroup index
  return r.add .ordinary (.again index r.flags.folding)

/-- Closes the innermost bracket. -/
def leave (r : Reader) : Except Problem Reader :=
  match r.outer with
  | [] => .error .malformed
  | outer :: rest =>
    let body := r.level.body
    let span := body.span fun index => (r.spans.lookup index).getD ⟨0, some 0⟩
    let closed := { r with level := outer, outer := rest }
    match r.level.opening with
    | .whole => .error .malformed
    | .parts => .ok (closed.add .ordinary body)
    | .settled => .ok (closed.add .ordinary (.settled body))
    | .ahead isWanted => .ok (closed.add .ordinary (.ahead isWanted body))
    | .group index =>
      .ok { closed.add .ordinary (.group index body) with spans := (index, span) :: r.spans }
    | .behind isWanted _ =>
      match span.only? with
      | some width => .ok (closed.add .ordinary (.behind isWanted width body))
      | none => .ok { closed.add .ordinary body with isUnmeasured := true }
    | .given index =>
      match r.level.choices with
      | [] => .ok (closed.add .ordinary (.given index body .empty))
      | first :: _ => .ok (closed.add .ordinary (.given index first r.level.current))

/-! ## Escaped characters -/

/-- Reads a digit behind a backslash: the code point of three digits with base
eight, or the number of a group. -/
def digits (r : Reader) (c : Char) (rest : List Token) : Except Problem (Reader × List Token) :=
  let (second, rest) := Token.takeChars Char.isDigit 1 rest
  let (third, afterThird) := Token.takeChars isOctal 1 rest
  let ds := c :: second
  if ds.length == 2 && ds.all isOctal && !third.isEmpty then
    let n := numberOf 8 (ds ++ third)
    if 0o377 < n then .error .malformed else .ok (r.addCode n, afterThird)
  else (r.addAgain (numberOf 10 ds)).map (·, rest)

/-- Reads what a backslash and a character stand for. -/
def escape (r : Reader) (c : Char) (rest : List Token) : Except Problem (Reader × List Token) :=
  match escapedAnchor? r.flags.isPlain c, escapedKind? r.flags.isPlain c with
  | some anchor, _ => .ok (r.add .anchor (.at anchor), rest)
  | none, some kind => .ok (r.addSet ⟨[kind], false, r.flags.folding⟩, rest)
  | none, none =>
    if c == '0' then (octal c rest).map fun (n, rest) => (r.addCode n, rest)
    else if c.isDigit then r.digits c rest
    else (escapedCode c rest).map fun (n, rest) => (r.addCode n, rest)

/-! ## Repetitions -/

/-- One more than the largest count of a repetition. -/
def countLimit : Nat := 4294967295

/-- Reads the counts of a repetition behind the brace that opens them.  What
does not have their form is no repetition. -/
def counts? (tokens : List Token) : Except Problem (Option (Nat × Option Nat × List Token)) :=
  if tokens.head? == some (.plain '}') then .ok none
  else
    let (low, rest) := Token.takeChars Char.isDigit tokens.length tokens
    let (high, rest) := match rest with
      | .plain ',' :: rest => Token.takeChars Char.isDigit rest.length rest
      | rest => (low, rest)
    match rest with
    | .plain '}' :: rest =>
      let least := numberOf 10 low
      let most := if high.isEmpty then none else some (numberOf 10 high)
      if countLimit ≤ least || most.any (countLimit ≤ ·) then .error .hugeCount
      else if most.any (· < least) then .error .malformed
      else .ok (some (least, most, rest))
    | _ => .ok none

/-- Repeats the last part.  A condition and a repetition cannot be repeated. -/
def repeatLast (r : Reader) (low : Nat) (high : Option Nat) (rest : List Token) :
    Except Problem (Reader × List Token) :=
  let (mode, rest) : Mode × List Token := match rest with
    | .plain '?' :: rest => (.lazy, rest)
    | .plain '+' :: rest => (.possessive, rest)
    | rest => (.greedy, rest)
  match r.level.parts with
  | (.ordinary, node) :: parts =>
    let level := { r.level with parts := parts }
    .ok ({ r with level := level.add .repetition (.times mode low high node) }, rest)
  | _ => .error .malformed

/-! ## Brackets -/

/-- Whether a name can be given to a group: letters, numbers and underscores,
and no digit in front. -/
def isName (name : List Char) : Bool :=
  !name.isEmpty && name.all (CharKind.word.contains false) &&
    !name.head?.any (CharKind.digit.contains false)

/-- Reads the name of a group up to a character. -/
def groupName (stop : Char) (rest : List Token) : Except Problem (List Char × List Token) := do
  let (ts, rest) ← Token.takeUntil stop rest
  return (ts.flatMap Token.chars, rest)

/-- The group of a name. -/
def groupOf (r : Reader) (name : List Char) : Except Problem Nat :=
  match r.names.lookup (String.ofList name) with
  | some index => .ok index
  | none => .error .malformed

/-- Opens a group, which may have a name. -/
def enterGroup (r : Reader) (name : Option (List Char)) : Except Problem Reader := do
  let index := r.groups + 1
  let names ← match name with
    | none => pure r.names
    | some name =>
      if !isName name || (r.names.lookup (String.ofList name)).isSome then throw .malformed
      else pure ((String.ofList name, index) :: r.names)
  return { r with groups := index, names }.enter (.group index) r.flags

/-- Reads what stands behind the letter of a named group. -/
def named (r : Reader) : List Token → Except Problem (Reader × List Token)
  | .plain '<' :: rest => do
    let (name, rest) ← groupName '>' rest
    return (← r.enterGroup (some name), rest)
  | .plain '=' :: rest => do
    let (name, rest) ← groupName ')' rest
    return (← r.addAgain (← r.groupOf name), rest)
  | _ => .error .malformed

/-- Opens a choice by whether a group has a stretch. -/
def choice (r : Reader) (rest : List Token) : Except Problem (Reader × List Token) := do
  let (name, rest) ← groupName ')' rest
  let (index, needed) ←
    if isName name then do
      let index ← r.groupOf name
      pure (index, r.needed)
    else
      let index := numberOf 10 name
      if name.all Char.isDigit && 0 < index then pure (index, max r.needed index)
      else throw .malformed
  r.checkGroup index
  return ({ r with needed }.enter (.given index) r.flags, rest)

/-- Takes the letters of flags off the front. -/
def flagLetters (rest : List Token) : List Char × List Token :=
  Token.takeChars Flags.letters.contains rest.length rest

/-- Reads flags: for all of the pattern, where nothing stands before them, or
for a bracket that they open. -/
def setFlags (r : Reader) (tokens : List Token) : Except Problem (Reader × List Token) := do
  let (on, rest) := flagLetters tokens
  if on.contains 'a' && on.contains 'u' then throw .malformed
  match rest with
  | .plain ')' :: rest =>
    let isFirst := r.outer.isEmpty && r.level.choices.isEmpty && r.level.parts.isEmpty
    if on.isEmpty || !isFirst then throw .malformed
    let flags := on.foldl (·.set true ·) r.flags
    return ({ r with level := { r.level with flags } }, rest)
  | .plain ':' :: rest =>
    if on.isEmpty || on.contains 't' then throw .malformed
    return (r.enter .parts (r.flags.inside on []), rest)
  | .plain '-' :: rest =>
    let (off, rest) := flagLetters rest
    let refused := off.isEmpty || on.contains 't' || off.any ['a', 'u', 't'].contains ||
      off.any on.contains
    match rest with
    | .plain ':' :: rest =>
      if refused then throw .malformed
      return (r.enter .parts (r.flags.inside on off), rest)
    | _ => throw .malformed
  | _ => throw .malformed

/-- Reads what stands behind a question mark that follows an opening bracket. -/
def extension (r : Reader) : List Token → Except Problem (Reader × List Token)
  | .plain 'P' :: rest => r.named rest
  | .plain ':' :: rest => .ok (r.enter .parts r.flags, rest)
  | .plain '>' :: rest => .ok (r.enter .settled r.flags, rest)
  | .plain '=' :: rest => .ok (r.enter (.ahead true) r.flags, rest)
  | .plain '!' :: rest => .ok (r.enter (.ahead false) r.flags, rest)
  | .plain '<' :: .plain '=' :: rest => .ok (r.enter (.behind true r.groups) r.flags, rest)
  | .plain '<' :: .plain '!' :: rest => .ok (r.enter (.behind false r.groups) r.flags, rest)
  | .plain '(' :: rest => r.choice rest
  | .plain '#' :: rest => (Token.takeUntil ')' rest).map fun (_, rest) => (r, rest)
  | rest => r.setFlags rest

/-- Ends a choice.  A choice by a group has two at most. -/
def endChoice (r : Reader) : Except Problem Reader :=
  match r.level.opening, r.level.choices with
  | .given _, _ :: _ => .error .malformed
  | _, _ => .ok { r with level := r.level.endChoice }

/-! ## Elements -/

/-- Reads a plain character, or what it opens. -/
def character (r : Reader) (c : Char) (rest : List Token) :
    Except Problem (Reader × List Token) := do
  match c with
  | '|' => return (← r.endChoice, rest)
  | ')' => return (← r.leave, rest)
  | '(' =>
    match rest with
    | .plain '?' :: rest => r.extension rest
    | rest => return (← r.enterGroup none, rest)
  | '[' =>
    let (set, rest) ← charSet r.flags.isPlain r.flags.folding rest
    return (r.addSet set, rest)
  | '.' => return (r.addSet (if r.flags.pointIsAll then .all else .inLine), rest)
  | '^' => return (r.add .anchor (.at (if r.flags.hasLines then .lineStart else .textStart)), rest)
  | '$' => return (r.add .anchor (.at (if r.flags.hasLines then .lineEnd else .lastLineEnd)), rest)
  | '*' => r.repeatLast 0 none rest
  | '+' => r.repeatLast 1 none rest
  | '?' => r.repeatLast 0 (some 1) rest
  | '{' =>
    match ← counts? rest with
    | some (low, high, rest) => r.repeatLast low high rest
    | none => return (r.addCode c.toNat, rest)
  | c => return (r.addCode c.toNat, rest)

/-- Drops a remark up to the end of its line. -/
def dropRemark (rest : List Token) : List Token := (rest.dropWhile (· != .plain '\n')).drop 1

/-- Reads one element. -/
def element (r : Reader) : Token → List Token → Except Problem (Reader × List Token)
  | .dangling, _ => .error .malformed
  | .escaped c, rest => r.escape c rest
  | .plain c, rest =>
    if r.flags.isSpaced && CharKind.blank.contains true c then .ok (r, rest)
    else if r.flags.isSpaced && c == '#' then .ok (r, dropRemark rest)
    else r.character c rest

/-- The pattern at the end. -/
def finish (r : Reader) : Except Problem Pattern :=
  if !r.outer.isEmpty then .error .malformed
  else if r.flags.isPlain && r.flags.isFull then .error .mixedAlphabets
  else if r.groups < r.needed || r.isUnmeasured then .error .malformed
  else .ok ⟨r.level.body, r.groups⟩

/-- Reads elements up to the end. -/
def elements (r : Reader) : List Token → Except Problem Pattern
  | [] => r.finish
  | t :: rest =>
    match r.element t rest with
    | .error problem => .error problem
    | .ok (r, left) => if left.length ≤ rest.length then r.elements left else .error .malformed
termination_by tokens => tokens.length

end Reader

/-- Reads a pattern. -/
def read (text : String) : Except Problem Pattern :=
  Reader.start.elements (Token.ofChars text.toList)

end LatentFactors.Text.Pattern
