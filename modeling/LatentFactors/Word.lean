/-!
# Integers that fit a word

Indices and the integers of most columns are kept in words of 64 bits, with
or without a sign.
-/

namespace LatentFactors

/-- One more than the largest integer in a word with a sign. -/
def signedLimit : Int := 9223372036854775808

/-- One more than the largest integer in a word without a sign. -/
def unsignedLimit : Int := 18446744073709551616

/-- The words that the integers of a column are kept in. -/
inductive Width where
  /-- Words of 64 bits with a sign. -/
  | signed
  /-- Words of 64 bits without a sign. -/
  | unsigned
  /-- As many digits as needed. -/
  | unbounded
  deriving DecidableEq, Repr

namespace Width

/-- Whether an integer fits. -/
def fits : Width → Int → Bool
  | signed, n => -signedLimit ≤ n && n < signedLimit
  | unsigned, n => 0 ≤ n && n < unsignedLimit
  | unbounded, _ => true

/-- The first width that all integers of a list fit. -/
def ofValues (values : List Int) : Width :=
  if values.all signed.fits then signed
  else if values.all unsigned.fits then unsigned
  else unbounded

/-- The integer that is left of one that does not fit. -/
def wrap : Width → Int → Int
  | signed, n => n.bmod unsignedLimit.toNat
  | unsigned, n => n % unsignedLimit
  | unbounded, n => n

/-- What is left of an integer fits. -/
theorem fits_wrap (w : Width) (n : Int) : w.fits (w.wrap n) = true := by
  cases w with
  | signed =>
    have hlow := Int.le_bmod (x := n) (m := 18446744073709551616) (by decide)
    have hhigh := Int.bmod_lt (x := n) (m := 18446744073709551616) (by decide)
    have hm : unsignedLimit.toNat = 18446744073709551616 := rfl
    rw [wrap, fits, hm, signedLimit, Bool.and_eq_true]
    exact ⟨decide_eq_true (by omega), decide_eq_true (by omega)⟩
  | unsigned =>
    rw [wrap, fits, unsignedLimit, Bool.and_eq_true]
    exact ⟨decide_eq_true (by omega), decide_eq_true (by omega)⟩
  | unbounded => rfl

end Width

end LatentFactors
