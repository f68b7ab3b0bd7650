import LatentFactors.Decimal.Spelling
import LatentFactors.Text.Letter

/-!
# Sets of characters

A `CharSet` lists ranges of code points and kinds of characters, or all
characters but those.  When case does not count (`Folding`), a character
belongs to a range if one of its variants does.

`plain` characters are those of the first 128 code points.  A kind is either
limited to them or holds characters of all scripts.
-/

namespace LatentFactors.Text

/-- Which characters are the same when case does not count. -/
inductive Folding where
  /-- Case counts. -/
  | exact
  /-- The case of plain letters does not count. -/
  | plain
  /-- The case of no letter counts. -/
  | full
  deriving DecidableEq, Repr

namespace Folding

/-- The small letter of a plain capital one. -/
def lowerPlain (n : Nat) : Nat := if 65 ≤ n && n ≤ 90 then n + 32 else n

/-- The code point that stands for all that differ from it by case. -/
def fold : Folding → Nat → Nat
  | exact, n => n
  | plain, n => lowerPlain n
  | full, n => Letter.lower n

/-- The code points that count as the same as one. -/
def variants : Folding → Nat → List Nat
  | exact, n => [n]
  | plain, n =>
    let small := lowerPlain n
    if 97 ≤ small && small ≤ 122 then [small, small - 32] else [n]
  | full, n => Letter.variants n

end Folding

/-- A kind of characters. -/
inductive CharKind where
  | digit
  | blank
  /-- Letters, numbers and the underscore. -/
  | word
  deriving DecidableEq, Repr

namespace CharKind

/-- Whether a plain character is of a kind. -/
def containsPlain : CharKind → Char → Bool
  | digit, c => c.isDigit
  | blank, c => c == ' ' || (9 ≤ c.toNat && c.toNat ≤ 13)
  | word, c => c.isAlphanum || c == '_'

/-- Whether a character of any script is of a kind. -/
def containsAny : CharKind → Char → Bool
  | digit, c => (Decimal.digit? c).isSome
  | blank, c => Decimal.isBlank c
  | word, c => Letter.isAlphanumeric c.toNat || c == '_'

/-- Whether a character is of a kind, which may be limited to plain
characters. -/
def contains (kind : CharKind) (isPlain : Bool) (c : Char) : Bool :=
  if isPlain then kind.containsPlain c else kind.containsAny c

end CharKind

/-- What a set of characters lists. -/
inductive CharSet.Member where
  | range (first last : Nat)
  /-- A kind of characters, or all others. -/
  | ofKind (kind : CharKind) (isPlain : Bool) (isOutside : Bool)
  deriving DecidableEq, Repr

/-- A set of characters: those that are listed, or all others. -/
structure CharSet where
  members : List CharSet.Member
  isOutside : Bool
  folding : Folding
  deriving DecidableEq, Repr

namespace CharSet

/-- Whether a character is listed by a member. -/
def Member.contains (folding : Folding) (c : Char) : Member → Bool
  | range first last => (folding.variants c.toNat).any fun n => first ≤ n && n ≤ last
  | ofKind kind isPlain isOutside =>
    kind.contains isPlain (Char.ofNat (folding.fold c.toNat)) != isOutside

/-- Whether a character is in a set. -/
def contains (s : CharSet) (c : Char) : Bool :=
  s.members.any (·.contains s.folding c) != s.isOutside

/-- The set of one code point and its variants. -/
def single (folding : Folding) (n : Nat) : CharSet := ⟨[.range n n], false, folding⟩

/-- The set of all characters. -/
def all : CharSet := ⟨[], true, .exact⟩

/-- The set of all characters but the end of a line. -/
def inLine : CharSet := ⟨[.range 10 10], true, .exact⟩

/-- Every character is in the set of all. -/
theorem contains_all (c : Char) : all.contains c = true := rfl

/-- Where case counts, one code point is one character. -/
theorem contains_single_exact (c d : Char) :
    (single .exact d.toNat).contains c = true ↔ c.toNat = d.toNat := by
  simp only [contains, single, Member.contains, Folding.variants, List.any_cons, List.any_nil,
    Bool.or_false, Bool.and_eq_true, decide_eq_true_eq, Bool.bne_false]
  exact ⟨fun h => Nat.le_antisymm h.2 h.1, fun h => ⟨h ▸ Nat.le_refl _, h ▸ Nat.le_refl _⟩⟩

end CharSet

end LatentFactors.Text
