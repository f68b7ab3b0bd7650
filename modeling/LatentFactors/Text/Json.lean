import LatentFactors.Table
import LatentFactors.Text.Json.Token

/-!
# JSON texts

`Json` is the type of JSON values.  A number keeps whether it was written as
an integer, and an object keeps the order of its names.

`Json.read` reads a text.  It feeds the tokens to a machine that keeps the
arrays and objects still open on a stack; `State.step` is one move of it.  A
name that an object repeats keeps its first place and takes its last value.
`Json.text` writes a value in one line.

A text that cannot be read has a `Problem`, the first one in the text: it is
no JSON, or it has an integer with too many digits where a value may stand.
-/

namespace LatentFactors.Text

/-- A JSON value. -/
inductive Json where
  | null
  | bool (b : Bool)
  | number (n : Numeral Float)
  | string (s : String)
  | array (elements : List Json)
  | object (members : List (String × Json))

namespace Json

/-! ## Reading -/

/-- An array or object that is still open, with its parts so far in reverse
order. -/
inductive Container where
  | array (done : List Json)
  | object (done : List (String × Json))
  /-- An object after a name. -/
  | member (done : List (String × Json)) (name : String)

/-- What has been read and what may come next. -/
inductive State where
  /-- A value has to come. -/
  | value (stack : List Container)
  /-- The first element of an array or its end has to come. -/
  | firstElement (stack : List Container)
  /-- The first name of an object or its end has to come. -/
  | firstName (stack : List Container)
  /-- A name has to come. -/
  | name (stack : List Container)
  /-- A colon has to come. -/
  | colon (stack : List Container)
  /-- A comma or the end of the innermost container has to come. -/
  | separator (stack : List Container)
  /-- The text is complete. -/
  | complete (value : Json)

/-- Puts a value into the innermost container. -/
def close (v : Json) : List Container → Option State
  | [] => some (.complete v)
  | .array done :: stack => some (.separator (.array (v :: done) :: stack))
  | .member done name :: stack => some (.separator (.object ((name, v) :: done) :: stack))
  | .object _ :: _ => none

/-- The object of some members in reverse order. -/
def ofMembers (done : List (String × Json)) : Json :=
  .object (Table.ofList done.reverse).entries

namespace State

/-- Begins or completes a value. -/
def begin (stack : List Container) : Token → Option State
  | .openArray => some (firstElement (.array [] :: stack))
  | .openObject => some (firstName (.object [] :: stack))
  | .null => close .null stack
  | .bool b => close (.bool b) stack
  | .number n => close (.number n) stack
  | .string s => close (.string s) stack
  | .closeArray | .closeObject | .comma | .colon | .longInteger | .unknown => none

/-- Takes a name into the innermost object. -/
def takeName : List Container → Token → Option State
  | .object done :: stack, .string s => some (colon (.member done s :: stack))
  | _, _ => none

/-- Closes the innermost container or goes on after a comma. -/
def separate : List Container → Token → Option State
  | .array done :: stack, .closeArray => close (.array done.reverse) stack
  | .object done :: stack, .closeObject => close (ofMembers done) stack
  | .array done :: stack, .comma => some (value (.array done :: stack))
  | .object done :: stack, .comma => some (name (.object done :: stack))
  | _, _ => none

/-- One move of the reader. -/
def step : State → Token → Option State
  | value stack, token => begin stack token
  | firstElement stack, .closeArray => separate stack .closeArray
  | firstElement stack, token => begin stack token
  | firstName stack, .closeObject => separate stack .closeObject
  | firstName stack, token => takeName stack token
  | name stack, token => takeName stack token
  | colon stack, .colon => some (value stack)
  | colon _, _ => none
  | separator stack, token => separate stack token
  | complete _, _ => none

/-- Whether a value may come next. -/
def awaitsValue : State → Bool
  | value _ | firstElement _ => true
  | _ => false

end State

/-- Why a text cannot be read. -/
inductive Problem where
  | malformed
  | longInteger
  deriving DecidableEq, Repr

/-- Takes one token, or tells what is wrong with it. -/
def State.advance (s : State) (token : Token) : Except Problem State :=
  if token = .longInteger && s.awaitsValue then .error .longInteger
  else
    match s.step token with
    | some next => .ok next
    | none => .error .malformed

/-- Reads a text that is one JSON value. -/
def read (text : String) : Except Problem Json := do
  match ← (Token.scan text.toList).foldlM State.advance (.value []) with
  | .complete v => return v
  | _ => throw .malformed

/-- The value of a text, if it is one JSON value. -/
def read? (text : String) : Option Json := (read text).toOption

/-- The value of a name in an object. -/
def member? (v : Json) (name : String) : Option Json :=
  match v with
  | object members => Table.find? ⟨members⟩ name
  | _ => none

/-! ## Writing -/

/-- A hexadecimal number of four digits. -/
def hex4 (n : Nat) : List Char :=
  let ds := Nat.toDigits 16 n
  List.replicate (4 - ds.length) '0' ++ ds

/-- Escapes a character that does not stand for itself.  Everything outside of
printable ASCII is written as one or two numbers. -/
def escape (c : Char) : List Char :=
  if c == '"' then ['\\', '"']
  else if c == '\\' then ['\\', '\\']
  else if c == '\n' then ['\\', 'n']
  else if c == '\r' then ['\\', 'r']
  else if c == '\t' then ['\\', 't']
  else if 32 ≤ c.toNat && c.toNat < 127 then [c]
  else if c.toNat < 0x10000 then '\\' :: 'u' :: hex4 c.toNat
  else
    let n := c.toNat - 0x10000
    '\\' :: 'u' :: hex4 (0xd800 + n / 0x400) ++ '\\' :: 'u' :: hex4 (0xdc00 + n % 0x400)

/-- Writes a text in quotes. -/
def quote (s : String) : String :=
  "\"" ++ String.ofList (s.toList.flatMap escape) ++ "\""

/-- Writes a number. -/
def numberText (n : Numeral Float) : String :=
  match n.text with
  | "nan" => "NaN"
  | "inf" => "Infinity"
  | "-inf" => "-Infinity"
  | text => text

mutual

/-- Writes a value in one line. -/
def text : Json → String
  | null => "null"
  | bool b => if b then "true" else "false"
  | number n => numberText n
  | string s => quote s
  | array elements => "[" ++ elementsText elements ++ "]"
  | object members => "\x7b" ++ membersText members ++ "\x7d"

/-- Writes the elements of an array. -/
def elementsText : List Json → String
  | [] => ""
  | [v] => v.text
  | v :: rest => v.text ++ ", " ++ elementsText rest

/-- Writes the members of an object. -/
def membersText : List (String × Json) → String
  | [] => ""
  | [(name, v)] => quote name ++ ": " ++ v.text
  | (name, v) :: rest => quote name ++ ": " ++ v.text ++ ", " ++ membersText rest

end

end Json

end LatentFactors.Text
