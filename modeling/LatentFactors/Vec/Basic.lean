import LatentFactors.Fault
import LatentFactors.Table
import LatentFactors.Vec.Sparse
import LatentFactors.Word

/-!
# Vectors

A vector is dense or sparse, and both kinds answer the same questions.
`Vec.entry` is the view that the theory speaks about: the number at an index,
zero outside of the vector.  `get` and `put` take any integer as an index,
negative ones counting from the end, and refuse those outside of the vector.
`write` puts a number as it is written, which has to be in range.

A product with a sparse vector visits only the nonzero entries of the sparse
one, so an infinite entry meets a zero only in a product of dense vectors.

A sparse vector may have any size, and its entries can be read and written.
They can be listed only if a word with a sign counts them all
(`Vec.IsListable`), and what needs the list fails otherwise: `nonzeroIndices`,
`dot` and `toDense`.  `Vec.support` and `Vec.toList` are the lists themselves.
-/

namespace LatentFactors

/-- A vector of numbers. -/
inductive Vec (α : Type) where
  | dense (entries : Array α)
  | sparse (entries : SparseVec α)

/-- Parameter vectors, one for each class. -/
abbrev Family (α : Type) := List (Vec α)

/-- The place of an index among `size` places; a negative index counts from
the end. -/
def place? (size : Nat) (i : Int) : Option Nat :=
  if 0 ≤ i then
    if i < size then some i.toNat else none
  else if 0 ≤ i + size then some (i + size).toNat
  else none

/-- A place is below the size. -/
theorem place?_lt {size place : Nat} {i : Int} (h : place? size i = some place) :
    place < size := by
  unfold place? at h
  split at h
  · split at h
    · injection h with h
      omega
    · cases h
  · split at h
    · injection h with h
      omega
    · cases h

/-- The place of an index that is in range is the index. -/
theorem place?_natCast {size i : Nat} (h : i < size) : place? size (i : Int) = some i := by
  have hi : (i : Int) < size := by omega
  simp [place?, hi]

/-- Why an index is refused where all entries are stored.  One that only a
word without a sign holds is too large for an index. -/
def indexFault {α : Type} (i : Int) : Fault α :=
  if Width.unsigned.fits i && !Width.signed.fits i then .tooLarge else .indexOutOfRange

/-- The place of an index among stored entries. -/
def place {α : Type} (size : Nat) (i : Int) : Outcome α Nat :=
  match place? size i with
  | some place => .ok place
  | none => .error (indexFault i)

/-- From this count on, a word with a sign cannot count the bytes of
numbers. -/
def arrayLimit : Int := 1152921504606846976

/-- Refuses a size that no array of numbers has. -/
def checkArray {α : Type} (size : Int) : Outcome α Unit :=
  if size < 0 then .error .negativeSize
  else if arrayLimit ≤ size then .error .noSize
  else .ok ()

namespace Vec

variable {α : Type} [Scalar α]

/-- The number of entries. -/
def size : Vec α → Nat
  | dense xs => xs.size
  | sparse v => v.size

/-- Whether only nonzero entries are stored. -/
def isSparse : Vec α → Bool
  | dense _ => false
  | sparse _ => true

/-- The number at an index, zero outside of the vector. -/
def entry (v : Vec α) (i : Nat) : α :=
  match v with
  | dense xs => xs[i]?.getD 0
  | sparse v => v.entry i

/-- Why an index is refused. -/
def outside (v : Vec α) (i : Int) : Fault α :=
  match v with
  | dense _ => indexFault i
  | sparse _ => .indexOutOfRange

/-- Reads the entry at an index. -/
def get (v : Vec α) (i : Int) : Outcome α α :=
  match place? v.size i with
  | some place => .ok (v.entry place)
  | none => .error (v.outside i)

/-- Writes the entry at a place inside the vector. -/
def set (v : Vec α) (place : Nat) (x : α) (h : place < v.size) : Vec α :=
  match v with
  | dense xs => dense (xs.set place x h)
  | sparse v => sparse (v.set place x h)

/-- Writes the entry at an index. -/
def put (v : Vec α) (i : Int) (x : α) : Outcome α (Vec α) :=
  match h : place? v.size i with
  | some place => .ok (v.set place x (place?_lt h))
  | none => .error (v.outside i)

/-- Writes a number as it is written.  The index is checked before the
number. -/
def write (v : Vec α) (i : Int) (y : Numeral α) : Outcome α (Vec α) := do
  let new ← v.put i y.value
  let _ ← Outcome.real y
  return new

/-- The entries in order. -/
def toList : Vec α → List α
  | dense xs => xs.toList
  | sparse v => (List.range v.size).map v.entry

/-- The indices of the nonzero entries, ascending. -/
def support : Vec α → List Nat
  | dense xs => (xs.toList.zipIdx.filter fun e => Scalar.nonzero e.1).map (·.2)
  | sparse v => v.support

/-- Whether the entries can be listed.  The indices of a sparse vector are
listed as words with a sign, which have to count all of its entries. -/
def IsListable (v : Vec α) : Prop := v.isSparse = true → (v.size : Int) < signedLimit

instance (v : Vec α) : Decidable v.IsListable :=
  inferInstanceAs (Decidable (v.isSparse = true → (v.size : Int) < signedLimit))

/-- Refuses a vector whose entries cannot be listed. -/
def checkListable (v : Vec α) : Outcome α Unit :=
  if v.IsListable then .ok () else .error .tooLarge

/-- Lists the indices of the nonzero entries. -/
def nonzeroIndices (v : Vec α) : Outcome α (List Nat) := do
  v.checkListable
  return v.support

/-- Lists the entries.  Those of a sparse vector need an array of their own. -/
def toDense (v : Vec α) : Outcome α (List α) := do
  v.checkListable
  if v.isSparse then checkArray v.size
  return v.toList

/-- The vector of zeros of the same kind and size. -/
def zeroLike : Vec α → Vec α
  | dense xs => dense (Array.replicate xs.size 0)
  | sparse v => sparse (.zero v.size)

/-- The sum of the products at the nonzero indices of the first vector. -/
def walk (v w : Vec α) : Outcome α α := do
  return Scalar.total ((← v.nonzeroIndices).map fun i => v.entry i * w.entry i)

/-- The scalar product of two vectors of the same size. -/
def dot (v w : Vec α) : Outcome α α :=
  if v.size ≠ w.size then .error (.cardinalityMismatch v.size w.size)
  else
    match v, w with
    | dense xs, dense ys => .ok (Scalar.total (List.zipWith (· * ·) xs.toList ys.toList))
    | dense _, sparse _ => w.walk v
    | sparse _, _ => v.walk w

/-- The dense vector of some numbers. -/
def ofNumerals (ys : List (Numeral α)) : Outcome α (Vec α) := do
  return dense (← ys.mapM Outcome.real).toArray

/-- The sparse vector of zeros of any size that is a count. -/
def sparseZero (size : Int) : Outcome α (Vec α) :=
  if size < 0 then .error .negativeSize else .ok (sparse (.zero size.toNat))

/-- The sparse vector with the given entries, written in order.  A repeated
index is written once, in its first place with its last number. -/
def ofEntries (size : Int) (entries : List (Int × Numeral α)) : Outcome α (Vec α) := do
  (Table.ofList entries).entries.foldlM (fun v e => v.write e.1 e.2) (← sparseZero size)

@[simp] theorem size_set (v : Vec α) (place : Nat) (x : α) (h : place < v.size) :
    (v.set place x h).size = v.size := by
  cases v with
  | dense xs => exact Array.size_set h
  | sparse v => exact SparseVec.size_set v place x h

end Vec

end LatentFactors
