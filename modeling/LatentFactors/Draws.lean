import LatentFactors.Scalar

/-!
# Random draws

A stream of draws is a function from positions to numbers between zero and
one, with the count of those already taken.  Taking draws only moves the
count, so two streams with the same source and count go on alike.

Two sources are given: the numbers of a list, over and over, and a linear
congruential generator, whose state after `n` steps is computed by repeated
squaring of its step.
-/

namespace LatentFactors

/-- A stream of numbers and the count of those taken. -/
structure Draws (α : Type) where
  source : Nat → α
  taken : Nat

namespace Draws

variable {α : Type}

/-- The stream of a source, with nothing taken. -/
def ofSource (source : Nat → α) : Draws α := ⟨source, 0⟩

section

variable [Scalar α]

/-- A number between the bounds `low` and `high`, for a draw `u`. -/
def between (low high u : α) : α := low + (high - low) * u

/-- Takes the next draw. -/
def next (d : Draws α) : α × Draws α := (d.source d.taken, { d with taken := d.taken + 1 })

/-- Takes the next `n` draws. -/
def take (d : Draws α) (n : Nat) : List α × Draws α :=
  ((List.range n).map fun k => d.source (d.taken + k), { d with taken := d.taken + n })

end

/-- The numbers of a list in order, starting over at its end. -/
def cycle (values : Array Float) : Nat → Float :=
  fun n => values.getD (n % values.size) 0

/-! ## Linear congruential numbers -/

/-- The map `s ↦ (factor * s + shift) mod 2 ^ 31`. -/
structure Congruence where
  factor : Nat
  shift : Nat
  deriving DecidableEq, Repr

namespace Congruence

/-- The modulus of the generator, the thirty-first power of two. -/
def modulus : Nat := 2147483648

/-- The value of the map at `s`. -/
def apply (f : Congruence) (s : Nat) : Nat := (f.factor * s + f.shift) % modulus

/-- The map that applies `f` after `g`. -/
def after (f g : Congruence) : Congruence :=
  ⟨f.factor * g.factor % modulus, (f.factor * g.shift + f.shift) % modulus⟩

/-- The map that leaves every state alone. -/
def identity : Congruence := ⟨1, 0⟩

/-- Applying a map `n` times, by squaring it for every binary digit of `n`. -/
def iterate (f : Congruence) (n : Nat) : Congruence :=
  if h : n = 0 then identity
  else
    let half := (f.after f).iterate (n / 2)
    if n % 2 = 1 then half.after f else half
termination_by n
decreasing_by omega

/-- Applying `f` after `g` is applying `g` and then `f`. -/
theorem apply_after (f g : Congruence) (s : Nat) :
    (f.after g).apply s = f.apply (g.apply s) := by
  simp only [apply, after, Nat.add_mod, Nat.mul_mod, Nat.mod_mod]
  simp only [← Nat.mul_mod, ← Nat.add_mod]
  congr 1
  rw [Nat.mul_add, Nat.mul_assoc, Nat.add_assoc]

/-- Steps in a row, one after the other. -/
def steps (f : Congruence) : Nat → Nat → Nat
  | 0, s => s
  | n + 1, s => f.steps n (f.apply s)

/-- A state stays below the modulus. -/
theorem apply_lt (f : Congruence) (s : Nat) : f.apply s < modulus :=
  Nat.mod_lt _ (by decide)

/-- Steps of the squared map are twice as many steps. -/
theorem steps_after_self (f : Congruence) (n s : Nat) :
    (f.after f).steps n s = f.steps (2 * n) s := by
  induction n generalizing s with
  | zero => rfl
  | succ n ih =>
    have hdouble : 2 * (n + 1) = 2 * n + 1 + 1 := by omega
    rw [hdouble, steps, steps, steps, ih, apply_after]

/-- The map that `iterate` gives takes all steps at once. -/
theorem apply_iterate (f : Congruence) (n s : Nat) (h : s < modulus) :
    (f.iterate n).apply s = f.steps n s := by
  induction n using Nat.strongRecOn generalizing f s with
  | ind n ih =>
    rw [iterate]
    split
    · next hn =>
      subst hn
      simp [identity, apply, steps, Nat.mod_eq_of_lt h]
    · next hn =>
      have hhalf : n / 2 < n := by omega
      split
      · next hodd =>
        rw [apply_after, ih _ hhalf _ _ (apply_lt f s), steps_after_self]
        have hsplit : n = 2 * (n / 2) + 1 := by omega
        conv => rhs; rw [hsplit, steps]
      · next heven =>
        rw [ih _ hhalf _ _ h, steps_after_self]
        have hsplit : 2 * (n / 2) = n := by omega
        rw [hsplit]

/-- One step of the generator. -/
def step : Congruence := ⟨1103515245, 12345⟩

end Congruence

/-- The numbers of the generator that starts from a seed: its states over the
modulus. -/
def congruential (seed : Nat) : Nat → Float :=
  fun n =>
    Float.ofNat ((Congruence.step.iterate (n + 1)).apply seed) / Float.ofNat Congruence.modulus

end Draws

end LatentFactors
