import LatentFactors.Text.Pattern.Basic

/-!
# Matching

`Node.step` follows a part of a pattern from a `Cursor`.  There may be several
ways to do so; they are tried in order, and each is handed to what has to come
after it, until that succeeds.

A repetition ends after a part without a character, so it goes around at most
once for every character that is left, and once more.

`Pattern.split` cuts a text at the matches of a pattern.  They do not overlap,
each is the first one from where the last one ended, and no match without a
character follows at once on another one without a character.
-/

namespace LatentFactors.Text.Pattern

/-- Where a match stands in a text, and the stretches of the groups, the last
ones first. -/
structure Cursor where
  place : Nat
  groups : List (Nat × Nat × Nat)
  deriving DecidableEq, Repr

namespace Cursor

/-- The stretch of a group. -/
def stretch? (c : Cursor) (index : Nat) : Option (Nat × Nat) := c.groups.lookup index

end Cursor

/-- A way to go on from a cursor: the outcome of what comes after it. -/
abbrev Step := Cursor → (Cursor → Option Cursor) → Option Cursor

namespace Step

/-- A step several times. -/
def repeated (step : Step) : Nat → Step
  | 0, c, next => next c
  | n + 1, c, next => step c fun d => step.repeated n d next

/-- A step as often as possible, or up to a number of times; then less often.
`last` is the place before the step that led here. -/
def most (step : Step) : Nat → Option Nat → Step
  | 0, _, c, next => next c
  | n + 1, last, c, next =>
    if last == some c.place then next c
    else (step c fun d => step.most n (some c.place) d next) <|> next c

/-- A step as rarely as possible; then more often, up to a number of times. -/
def least (step : Step) : Nat → Option Nat → Step
  | 0, _, c, next => next c
  | n + 1, last, c, next =>
    next c <|>
      if last == some c.place then none
      else step c fun d => step.least n (some c.place) d next

/-- The first outcome of a step, and no other. -/
def settled (step : Step) : Step := fun c next => (step c some).bind next

/-- A step as often as possible, or up to a number of times, where only the
first outcome of each counts. -/
def mostSettled (step : Step) : Nat → Option Nat → Step
  | 0, _, c, next => next c
  | n + 1, last, c, next =>
    if last == some c.place then next c
    else
      match step c some with
      | some d => step.mostSettled n (some c.place) d next
      | none => next c

/-- At least `low` and at most `low + more` times. -/
def times (step : Step) (mode : Mode) (low more : Nat) : Step :=
  match mode with
  | .greedy => fun c next => step.repeated low c fun d => step.most more none d next
  | .lazy => fun c next => step.repeated low c fun d => step.least more none d next
  | .possessive => fun c next =>
    step.settled.repeated low c fun d => step.mostSettled more none d next

end Step

/-- Whether a word is at a place. -/
def isWordAt (isPlain : Bool) (text : Array Char) (place : Nat) : Bool :=
  (text[place]?).any (CharKind.word.contains isPlain)

/-- Whether a word begins or ends at a place. -/
def isWordEdge (isPlain : Bool) (text : Array Char) (place : Nat) : Bool :=
  (0 < place && isWordAt isPlain text (place - 1)) != isWordAt isPlain text place

/-- Whether a condition holds at a place. -/
def Anchor.holds (text : Array Char) (place : Nat) : Anchor → Bool
  | textStart => place == 0
  | textEnd => place == text.size
  | lineStart => place == 0 || text[place - 1]? == some '\n'
  | lineEnd => place == text.size || text[place]? == some '\n'
  | lastLineEnd =>
    place == text.size || (place + 1 == text.size && text[place]? == some '\n')
  | wordEdge isPlain => !text.isEmpty && isWordEdge isPlain text place
  | noWordEdge isPlain => !text.isEmpty && !isWordEdge isPlain text place

/-- Whether the stretch from `first` to `last` is also at a place. -/
def isAgain (folding : Folding) (text : Array Char) (first last place : Nat) : Bool :=
  place + (last - first) ≤ text.size &&
    (List.range (last - first)).all fun i =>
      let code (j : Nat) : Option Nat := (text[j]?).map fun c => folding.fold c.toNat
      code (first + i) == code (place + i)

/-- Follows a part of a pattern. -/
def Node.step (text : Array Char) : Node → Step
  | empty, c, next => next c
  | one set, c, next =>
    match text[c.place]? with
    | some x => if set.contains x then next { c with place := c.place + 1 } else none
    | none => none
  | .at anchor, c, next => if anchor.holds text c.place then next c else none
  | seq first second, c, next => first.step text c fun d => second.step text d next
  | either first second, c, next => first.step text c next <|> second.step text c next
  | times mode low high body, c, next =>
    let turns := text.size - c.place + 1
    let more := high.elim turns fun high => min turns (high - low)
    (Step.times (body.step text) mode low more) c next
  | group index body, c, next =>
    body.step text c fun d => next { d with groups := (index, c.place, d.place) :: d.groups }
  | again index folding, c, next =>
    match c.stretch? index with
    | some (first, last) =>
      if isAgain folding text first last c.place
      then next { c with place := c.place + (last - first) }
      else none
    | none => none
  | settled body, c, next => (body.step text).settled c next
  | ahead isWanted body, c, next =>
    match body.step text c some, isWanted with
    | some d, true => next { d with place := c.place }
    | none, false => next c
    | some _, false | none, true => none
  | behind isWanted width body, c, next =>
    let found := if width ≤ c.place
      then body.step text { c with place := c.place - width } some
      else none
    match found, isWanted with
    | some d, true => next { d with place := c.place }
    | none, false => next c
    | some _, false | none, true => none
  | given index body otherwise, c, next =>
    if (c.stretch? index).isSome then body.step text c next else otherwise.step text c next

/-- A match: where it starts and ends, and the stretches of its groups. -/
structure Match where
  start : Nat
  finish : Nat
  groups : List (Nat × Nat × Nat)
  deriving DecidableEq, Repr

/-- The match at a place; it may have to be longer than nothing. -/
def matchAt? (p : Pattern) (text : Array Char) (start : Nat) (hasToAdvance : Bool) :
    Option Match :=
  let found := p.node.step text ⟨start, []⟩ fun c =>
    if hasToAdvance && c.place == start then none else some c
  found.map fun c => ⟨start, c.place, c.groups⟩

/-- The first match from a place on, of so many places.  Only at the first of
them it may have to be longer than nothing. -/
def search? (p : Pattern) (text : Array Char) : Nat → Nat → Bool → Option Match
  | 0, _, _ => none
  | n + 1, start, hasToAdvance =>
    p.matchAt? text start hasToAdvance <|> p.search? text n (start + 1) false

/-- How much there is to search from a place on. -/
def remaining (text : Array Char) (start : Nat) (hasToAdvance : Bool) : Nat :=
  2 * (text.size + 1 - start) + if hasToAdvance then 0 else 1

/-- All matches from a place on. -/
def matchesFrom (p : Pattern) (text : Array Char) (start : Nat) (hasToAdvance : Bool) :
    List Match :=
  match p.search? text (text.size + 1 - start) start hasToAdvance with
  | none => []
  | some m =>
    let isEmpty := m.finish == m.start
    if remaining text m.finish isEmpty < remaining text start hasToAdvance then
      m :: p.matchesFrom text m.finish isEmpty
    else []
termination_by remaining text start hasToAdvance

/-- A stretch of a text. -/
def slice (text : Array Char) (first last : Nat) : String :=
  String.ofList (text.extract first last).toList

/-- What stands between matches, and the groups of each match.  A group
without a stretch has no text. -/
def pieces (p : Pattern) (text : Array Char) (start : Nat) : List Match → List (Option String)
  | [] => [some (slice text start text.size)]
  | m :: rest =>
    let stretch (i : Nat) : Option String :=
      (m.groups.lookup (i + 1)).map fun (first, last) => slice text first last
    some (slice text start m.start) ::
      ((List.range p.groups).map stretch ++ p.pieces text m.finish rest)

/-- Cuts a text at the matches of a pattern. -/
def split (p : Pattern) (text : String) : List (Option String) :=
  let chars := text.toList.toArray
  p.pieces chars 0 (p.matchesFrom chars 0 false)

end LatentFactors.Text.Pattern
