import LatentFactors.Text.Pattern.CharSet

/-!
# Patterns

A `Pattern` describes a stretch of a text: characters of some sets, one after
the other, choices, repetitions, and conditions on the place.  A part of a
pattern can be a numbered group, whose stretch can be asked for again.

`Node.span` says how long a stretch can be.
-/

namespace LatentFactors.Text

namespace Pattern

/-- A condition on a place in a text. -/
inductive Anchor where
  | textStart
  | textEnd
  | lineStart
  | lineEnd
  /-- The end of the text, or before a line end that ends it. -/
  | lastLineEnd
  /-- Between a word and what is no word. -/
  | wordEdge (isPlain : Bool)
  /-- Not between a word and what is no word. -/
  | noWordEdge (isPlain : Bool)
  deriving DecidableEq, Repr

/-- In which order the counts of a repetition are tried. -/
inductive Mode where
  /-- The most first. -/
  | greedy
  /-- The least first. -/
  | lazy
  /-- The most only, each part as it fits first. -/
  | possessive
  deriving DecidableEq, Repr

/-- A part of a pattern. -/
inductive Node where
  /-- Nothing, at any place. -/
  | empty
  /-- One character of a set. -/
  | one (set : CharSet)
  /-- Nothing, where a condition holds. -/
  | at (anchor : Anchor)
  | seq (first second : Node)
  /-- One of two; the first is tried first. -/
  | either (first second : Node)
  /-- At least `low` times, and at most `high` times if there is a limit. -/
  | times (mode : Mode) (low : Nat) (high : Option Nat) (body : Node)
  /-- A numbered group. -/
  | group (index : Nat) (body : Node)
  /-- The stretch of a group once more. -/
  | again (index : Nat) (folding : Folding)
  /-- The way that fits first, and no other. -/
  | settled (body : Node)
  /-- Nothing, where the text goes on in a way, or does not. -/
  | ahead (isWanted : Bool) (body : Node)
  /-- Nothing, where so many characters before the place fit, or do not. -/
  | behind (isWanted : Bool) (width : Nat) (body : Node)
  /-- One of two, by whether a group has a stretch. -/
  | given (index : Nat) (body otherwise : Node)
  deriving Repr

/-- The lengths that a stretch can have: at least `low`, and at most `high` if
there is a limit. -/
structure Span where
  low : Nat
  high : Option Nat
  deriving DecidableEq, Repr

namespace Span

/-- Two limits under an operation; without one of them there is none. -/
def limit (f : Nat → Nat → Nat) : Option Nat → Option Nat → Option Nat
  | some m, some n => some (f m n)
  | _, _ => none

/-- One stretch after the other. -/
def append (s t : Span) : Span := ⟨s.low + t.low, limit (· + ·) s.high t.high⟩

/-- One stretch or the other. -/
def union (s t : Span) : Span := ⟨min s.low t.low, limit max s.high t.high⟩

/-- A stretch several times. -/
def times (low : Nat) (high : Option Nat) (s : Span) : Span :=
  let isNothing := s.high == some 0 || high == some 0
  ⟨s.low * low, if isNothing then some 0 else limit (· * ·) s.high high⟩

/-- The only length, if there is one. -/
def only? (s : Span) : Option Nat := if s.high == some s.low then some s.low else none

end Span

/-- The lengths of what a part describes, by those of the groups. -/
def Node.span (groups : Nat → Span) : Node → Span
  | empty | .at _ | ahead _ _ | behind _ _ _ => ⟨0, some 0⟩
  | one _ => ⟨1, some 1⟩
  | seq first second => (first.span groups).append (second.span groups)
  | either first second => (first.span groups).union (second.span groups)
  | times _ low high body => (body.span groups).times low high
  | group _ body | settled body => body.span groups
  | again index _ => groups index
  | given _ body otherwise => (body.span groups).union (otherwise.span groups)

/-- Parts one after the other. -/
def Node.sequence (parts : List Node) : Node := parts.foldr .seq .empty

end Pattern

/-- A pattern with the number of its groups. -/
structure Pattern where
  node : Pattern.Node
  groups : Nat
  deriving Repr

end LatentFactors.Text
