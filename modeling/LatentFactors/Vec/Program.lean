import LatentFactors.Vec.Basic

/-!
# Programs over named vectors

A program makes vectors, writes to them and asks questions about them, one
`Instruction` after the other.  An instruction gives an answer and perhaps a
new vector for a name; one that fails leaves all vectors as they were, and
the program goes on.

`Literal` tells how a vector is written down, densely or sparsely.  A name
that was never given a vector reads as the vector without entries.
-/

namespace LatentFactors.Vec

/-- A vector as it is written down: by all of its entries, or by its size and
some entries. -/
inductive Literal (α : Type) where
  | dense (entries : List (Numeral α))
  | sparse (size : Int) (entries : List (Int × Numeral α))

/-- The vector that is written down. -/
def Literal.vec {α : Type} [Scalar α] : Literal α → Outcome α (Vec α)
  | dense entries => ofNumerals entries
  | sparse size entries => ofEntries size entries

/-- What a program does with named vectors. -/
inductive Instruction (α : Type) where
  | make (name : String) (literal : Literal α)
  | put (name : String) (index : Int) (y : Numeral α)
  /-- Names the vector of zeros that is like another one. -/
  | like (name other : String)
  | copy (name other : String)
  | view (name : String)
  | get (name : String) (index : Int)
  | dot (name other : String)
  | nonzero (name : String)
  | size (name : String)
  | isSparse (name : String)
  | entries (name : String)

/-- What an instruction answers. -/
inductive Answer (α : Type) where
  | vector (v : Vec α)
  | number (x : α)
  | numbers (xs : List α)
  | count (n : Nat)
  | indices (is : List Nat)
  | flag (b : Bool)

/-- Vectors by their names. -/
abbrev Registers (α : Type) := Table String (Vec α)

namespace Instruction

variable {α : Type} [Scalar α]

/-- The vector of a name. -/
def named (rs : Registers α) (name : String) : Vec α := (rs.find? name).getD (.dense #[])

/-- What an instruction answers, and the vector it gives to a name. -/
def effect (rs : Registers α) :
    Instruction α → Outcome α (Answer α × Option (String × Vec α))
  | make name literal => do
    let v ← literal.vec
    return (.vector v, some (name, v))
  | put name index y => do
    let v ← (named rs name).write index y
    return (.vector v, some (name, v))
  | like name other =>
    let v := (named rs other).zeroLike
    .ok (.vector v, some (name, v))
  | copy name other =>
    let v := named rs other
    .ok (.vector v, some (name, v))
  | view name => .ok (.vector (named rs name), none)
  | get name index => do return (.number (← (named rs name).get index), none)
  | dot name other => do return (.number (← (named rs name).dot (named rs other)), none)
  | nonzero name => do return (.indices (← (named rs name).nonzeroIndices), none)
  | size name => .ok (.count (named rs name).size, none)
  | isSparse name => .ok (.flag (named rs name).isSparse, none)
  | entries name => do return (.numbers (← (named rs name).toDense), none)

/-- Runs one instruction. -/
def run (rs : Registers α) (instruction : Instruction α) :
    Outcome α (Answer α) × Registers α :=
  match instruction.effect rs with
  | .ok (answer, some (name, v)) => (.ok answer, rs.insert name v)
  | .ok (answer, none) => (.ok answer, rs)
  | .error fault => (.error fault, rs)

/-- Runs a program and collects the answers. -/
def runAll (rs : Registers α) : List (Instruction α) → List (Outcome α (Answer α)) × Registers α
  | [] => ([], rs)
  | instruction :: rest =>
    let (answer, rs) := instruction.run rs
    let (answers, rs) := runAll rs rest
    (answer :: answers, rs)

/-- A failed instruction leaves all vectors as they were. -/
theorem run_of_effect_error {rs : Registers α} {instruction : Instruction α} {fault : Fault α}
    (h : instruction.effect rs = .error fault) : instruction.run rs = (.error fault, rs) := by
  simp [run, h]

end Instruction

end LatentFactors.Vec
