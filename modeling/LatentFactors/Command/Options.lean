import LatentFactors.Decimal.Spelling
import LatentFactors.Fault

/-!
# Command lines

A command line is a list of words.  An option has a long name, a short name
or both, and may take a value; a word that is neither an option nor the value
of one is positional.

* A long name may be cut short if only one option starts that way, and its
  value may follow an equals sign.
* Short names may be joined in one word, the last one with its value.
* A value may be any word.  After the word `--` in another place all words are
  positional, that word among them.

`Arguments.read` refuses unknown and repeated options, a missing or an
unexpected value, and a wrong number of positional words.
-/

namespace LatentFactors.Command

/-- An option of a command. -/
structure OptionSpec where
  short : Option Char
  long : Option String
  takesValue : Bool
  deriving DecidableEq, Repr

/-- The name of an option: the long one if there is one. -/
def OptionSpec.name (spec : OptionSpec) : String :=
  match spec.long, spec.short with
  | some name, _ => "--" ++ name
  | none, some c => String.ofList ['-', c]
  | none, none => ""

/-- An option that takes a value. -/
def valued (short : Option Char) (long : Option String) : OptionSpec := ⟨short, long, true⟩

/-- An option without a value. -/
def switch (short : Option Char) (long : Option String) : OptionSpec := ⟨short, long, false⟩

/-- The options and the positional words of a command line. -/
structure Arguments where
  given : List (String × String)
  positional : List String
  deriving DecidableEq, Repr

/-- A command line that has been read in part. -/
structure Reading where
  arguments : Arguments
  /-- The option that the next word is the value of. -/
  pending : Option String
  /-- Whether all further words are positional. -/
  verbatim : Bool
  deriving DecidableEq, Repr

namespace Reading

/-- The reading of no words. -/
def start : Reading := ⟨⟨[], []⟩, none, false⟩

/-- Adds an option with its value, which is empty for a switch. -/
def give (r : Reading) (name value : String) : Reading :=
  { r with
    pending := none
    arguments := { r.arguments with given := r.arguments.given ++ [(name, value)] } }

/-- Adds a positional word. -/
def position (r : Reading) (word : String) : Reading :=
  { r with
    arguments := { r.arguments with positional := r.arguments.positional ++ [word] } }

/-- The option of a long name, which may be cut short. -/
def longOption? (specs : List OptionSpec) (name : String) : Option OptionSpec :=
  match specs.filter (·.long == some name) with
  | [spec] => some spec
  | _ =>
    match specs.filter fun spec => spec.long.any (·.startsWith name) with
    | [spec] => some spec
    | _ => none

/-- Reads a long option, given the word without its dashes. -/
def long (specs : List OptionSpec) (r : Reading) (word : List Char) : Option Reading := do
  let name := String.ofList (word.takeWhile (· != '='))
  let value := match word.dropWhile (· != '=') with
    | [] => none
    | _ :: value => some (String.ofList value)
  let spec ← longOption? specs name
  match spec.takesValue, value with
  | false, none => some (r.give spec.name "")
  | false, some _ => none
  | true, none => some { r with pending := some spec.name }
  | true, some value => some (r.give spec.name value)

/-- Reads the short options of one word. -/
def cluster (specs : List OptionSpec) (r : Reading) : List Char → Option Reading
  | [] => some r
  | c :: rest => do
    let spec ← specs.find? (·.short == some c)
    if spec.takesValue then
      if rest.isEmpty then some { r with pending := some spec.name }
      else some (r.give spec.name (String.ofList rest))
    else cluster specs (r.give spec.name "") rest

/-- Reads one word. -/
def step (specs : List OptionSpec) (r : Reading) (word : String) : Option Reading :=
  if r.verbatim then some (r.position word)
  else
    match r.pending with
    | some name => some (r.give name word)
    | none =>
      match word.toList with
      | ['-', '-'] => some { r.position word with verbatim := true }
      | '-' :: '-' :: rest => long specs r rest
      | '-' :: c :: rest => cluster specs r (c :: rest)
      | _ => some (r.position word)

end Reading

namespace Arguments

/-- Reads a command line with a fixed number of positional words. -/
def read? (specs : List OptionSpec) (count : Nat) (words : List String) : Option Arguments := do
  let r ← words.foldlM (Reading.step specs) .start
  let names := r.arguments.given.map (·.1)
  if r.pending.isNone && r.arguments.positional.length == count && decide names.Nodup then
    some r.arguments
  else none

/-- Reads a command line, or tells that it does not follow the usage. -/
def read {α : Type} (specs : List OptionSpec) (count : Nat) (words : List String) :
    Outcome α Arguments :=
  match read? specs count words with
  | some arguments => .ok arguments
  | none => .error .usage

/-- The value of an option. -/
def value? (a : Arguments) (name : String) : Option String :=
  (a.given.find? (·.1 == name)).map (·.2)

/-- The value of an option, unless it is empty. -/
def text? (a : Arguments) (name : String) : Option String :=
  (a.value? name).filter (· != "")

/-- Whether an option is given. -/
def has (a : Arguments) (name : String) : Bool := (a.value? name).isSome

/-- The positional word at a place. -/
def word (a : Arguments) (place : Nat) : String := a.positional.getD place ""

end Arguments

/-- Reads the value of an option as a number. -/
def realOption (text : String) : Outcome Float Float :=
  match Decimal.readReal text with
  | some x => .ok x
  | none => .error .malformedNumber

/-- Reads the value of an option as an integer. -/
def integerOption (text : String) : Outcome Float Int :=
  match Decimal.readInteger text with
  | some n => .ok n
  | none => .error .malformedNumber

/-- Reads a seed, which is no negative integer. -/
def seedOption (text : String) : Outcome Float Nat := do
  let n ← integerOption text
  if n < 0 then throw .malformedNumber else return n.toNat

end LatentFactors.Command
