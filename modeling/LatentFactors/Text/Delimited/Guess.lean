import LatentFactors.Frame
import LatentFactors.Text.Delimited.Word

/-!
# What a column holds

The words of a column decide what it holds: integers, numbers, truth values or
texts.  There are two rules, and they differ where integers do not fit words
of 64 bits, and in the spelling of truth values.

`ofWords` goes from integers with a sign to integers without a sign, integers
of any length, numbers, truth values and texts.  The first word that is no
integer, or that does not fit, decides where it goes on.

`ofFields` looks at all words before it decides.  A field may be absent, and
counts as missing then.
-/

namespace LatentFactors.Text.Delimited.Guess

/-- Reads all words that are not missing, if all of them can be read. -/
def readAll {β : Type} (read : String → Option β) (words : List (Option String)) :
    Option (List (Option β)) :=
  words.mapM fun word => match word with
    | none => some none
    | some word => (read word).map some

/-- The column of truth values, of which some may be missing. -/
def ofFlags (flags : List (Option Bool)) : Column Float :=
  match flags.mapM id with
  | some flags => .flags flags
  | none => .cells (flags.map fun b => b.elim .missing .flag)

/-- The column of integers of any length, of which some may be missing. -/
def ofLongIntegers (ns : List (Option Int)) : Column Float :=
  match ns.mapM id with
  | some ns => .ints .unbounded ns
  | none => .cells (ns.map fun n => n.elim .missing .int)

/-- The words with the missing ones marked. -/
def marked (words : List String) : List (Option String) :=
  words.map fun word => if Word.isMissing word then none else some word

/-! ## Words -/

/-- How reading integers of one width ends. -/
inductive Integers where
  | all (ns : List (Option Int))
  /-- A word is an integer that does not fit. -/
  | tooLarge
  /-- A word is no integer. -/
  | other
  deriving DecidableEq, Repr

/-- Reads integers of one width.  The first word that cannot be read decides. -/
def integers (width : Width) : List (Option String) → Integers
  | [] => .all []
  | none :: rest =>
    match integers width rest with
    | .all ns => .all (none :: ns)
    | failure => failure
  | some word :: rest =>
    match Word.integerPrefix? word with
    | none => .other
    | some (n, behind) =>
      if !width.fits n then .tooLarge
      else if !behind.all Word.isBlank then .other
      else
        match integers width rest with
        | .all ns => .all (some n :: ns)
        | failure => failure

/-- The column of words that are numbers, truth values or texts. -/
def ofOthers (words : List (Option String)) : Column Float :=
  match readAll Word.real? words, readAll Word.flag? words with
  | some xs, _ => .reals xs
  | none, some flags => ofFlags flags
  | none, none => .texts words

/-- The column of words with an integer that does not fit a word without a
sign. -/
def ofLongWords (words : List String) : Column Float :=
  match readAll Word.longInteger? (marked words) with
  | some ns => ofLongIntegers ns
  | none => .texts (words.map some)

/-- The column of words with an integer that does not fit a word with a sign.
Words below zero are skipped at first; there must be none of them, and no
missing one, beside an integer that fits only without a sign. -/
def ofLargeWords (words : List String) : Column Float :=
  let isBelowZero (word : Option String) : Bool := word.any Word.isBelowZero
  let others := (marked words).filter (!isBelowZero ·)
  match integers .unsigned others with
  | .tooLarge => ofLongWords words
  | .other => ofOthers (marked words)
  | .all ns =>
    let hasSigns := (marked words).any isBelowZero
    let needsWidth := ns.any fun n => n.any (signedLimit ≤ ·)
    if needsWidth && (hasSigns || ns.contains none) then .texts (words.map some)
    else if hasSigns then ofLongWords words
    else .ints .unsigned (ns.filterMap id)

/-- The column of words. -/
def ofWords (words : List String) : Column Float :=
  if words.isEmpty then .texts []
  else if words.all Word.isMissing then .reals (words.map fun _ => none)
  else
    match integers .signed (marked words) with
    | .tooLarge => ofLargeWords words
    | .other => ofOthers (marked words)
    | .all ns =>
      match ns.mapM id with
      | some ns => .ints .signed ns
      | none => .reals (ns.map (Option.map Float.ofInt))

/-! ## Fields -/

/-- The column of fields that are not all numbers, with the missing ones
marked. -/
def ofOtherFields (fields : List (Option String)) : Column Float :=
  match readAll Word.plainFlag? fields with
  | some flags => ofFlags flags
  | none => .texts fields

/-- The column of fields, of which some may be absent.  Missing ones and those
that are no integers make it a column of numbers; but an integer that fits
only without a sign must not stand beside one below zero or a missing one. -/
def ofFields (fields : List (Option String)) : Column Float :=
  let known := fields.map fun field => field.filter (!Word.isMissing ·)
  let whole (field : String) : Option Int := (Word.integer? field).bind fun _ =>
    Word.longInteger? field
  let ns := known.filterMap fun field => field.bind whole
  let isNumber (field : String) : Bool := (Word.real? field).isSome &&
    ((Word.integer? field).isNone || (whole field).isSome)
  let needsWidth := ns.any fun n => signedLimit ≤ n && n < unsignedLimit
  let hasSigns := ns.any fun n => -signedLimit ≤ n && n < 0
  if fields.isEmpty then .texts []
  else if !known.all (·.all isNumber) then ofOtherFields known
  else if needsWidth && (hasSigns || known.contains none) then .texts fields
  else if ns.length < known.length then .reals (known.map (·.bind Word.real?))
  else .ofInts ns

end LatentFactors.Text.Delimited.Guess
