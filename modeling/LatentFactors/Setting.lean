import LatentFactors.Fault
import LatentFactors.Text.Quoted

/-!
# Settings

A `Setting` is the value of a named parameter.  It may be anything that can
be written down, and it is kept as it was given: a setting of the wrong type
does no harm as long as it is not used.

Each way of using a setting is a function that refuses those that it has no
use for: `factor` and `vectorFactor` multiply by it, `count` repeats, and
`vectorSize` makes vectors of it.  A flag counts as zero or one.

`spelling` shows a setting.
-/

namespace LatentFactors

/-- The value of a named parameter. -/
inductive Setting (α : Type) where
  | number (n : Numeral α)
  | flag (b : Bool)
  | text (s : String)
  /-- A parameter that is given without a value. -/
  | absent
  | list (elements : List (Setting α))
  | table (entries : List (String × Setting α))

namespace Setting

variable {α : Type}

/-- The setting of an integer. -/
def ofInt (n : Int) : Setting α := number (.integer n)

/-- The setting of a number to compute with. -/
def ofReal (x : α) : Setting α := number (.real x)

variable [Scalar α]

/-! ## Showing a setting -/

mutual

/-- Shows a setting as a part of another one: texts are in quotes. -/
def quoted : Setting α → String
  | number n => n.text
  | flag b => if b then "True" else "False"
  | text s => Text.quoted s
  | absent => "None"
  | list elements => "[" ++ elementsText elements ++ "]"
  | table entries => "\x7b" ++ entriesText entries ++ "\x7d"

/-- Shows the elements of a list. -/
def elementsText : List (Setting α) → String
  | [] => ""
  | [s] => s.quoted
  | s :: rest => s.quoted ++ ", " ++ elementsText rest

/-- Shows the entries of a table. -/
def entriesText : List (String × Setting α) → String
  | [] => ""
  | [(name, s)] => Text.quoted name ++ ": " ++ s.quoted
  | (name, s) :: rest => Text.quoted name ++ ": " ++ s.quoted ++ ", " ++ entriesText rest

end

/-- Shows a setting.  A text is shown as it is. -/
def spelling : Setting α → String
  | text s => s
  | s => s.quoted

/-! ## Using a setting -/

/-- Whether a setting is on: anything but zero, no, nothing and what is
empty. -/
def isOn : Setting α → Bool
  | number (.integer n) => n ≠ 0
  | number (.real x) => Scalar.nonzero x
  | flag b => b
  | text s => !s.isEmpty
  | absent => false
  | list elements => !elements.isEmpty
  | table entries => !entries.isEmpty

/-- The number of a setting, if it is one. -/
def numeral? : Setting α → Option (Numeral α)
  | number n => some n
  | flag b => some (.integer b.toInt)
  | text _ | absent | list _ | table _ => none

/-- The number of a setting. -/
def numeral (s : Setting α) : Outcome α (Numeral α) :=
  match s.numeral? with
  | some n => .ok n
  | none => .error .wrongType

/-- Whether a setting is exactly the number `n`. -/
def isExactly (s : Setting α) (n : Int) : Bool := s.numeral?.any (·.isExactly n)

/-- What a number is multiplied by. -/
def factor (s : Setting α) : Outcome α α := do Outcome.real (← s.numeral)

/-- What a vector is multiplied by. -/
def vectorFactor : Setting α → Outcome α α
  | text _ => .error .textFactor
  | s => s.factor

/-- How often something is done. -/
def count : Setting α → Outcome α Int
  | number (.integer n) => .ok n
  | flag b => .ok b.toInt
  | _ => .error .wrongType

/-- The cardinality of the vectors that are made with a setting.  What is no
integer is taken for the only entry of a vector, and there is none to read
when it cannot even be that. -/
def vectorSize : Setting α → Outcome α Int
  | number (.integer n) => .ok n
  | flag b => .ok b.toInt
  | number (.real x) =>
    match Scalar.truncate x with
    | .ok n => .error (if Scalar.equals x (Scalar.ofInt n) then .noSize else .indexOutOfRange)
    | .error .infinite => .error (.wholePart .infinite)
    | .error .undefined => .error .indexOutOfRange
  | text s =>
    .error (if (Scalar.read (α := α) s).isSome then .indexOutOfRange else .malformedNumber)
  | list _ => .error .wrongType
  | absent => .error .indexOutOfRange
  | table entries => .error (if entries.isEmpty then .indexOutOfRange else .wrongType)

/-- Reads a setting as a number; a text has to spell one. -/
def reading : Setting α → Outcome α α
  | text s =>
    match Scalar.read s with
    | some x => .ok x
    | none => .error .malformedNumber
  | s => s.factor

end Setting

end LatentFactors
