import LatentFactors.Proofs.Arithmetic
import LatentFactors.Proofs.Outcome
import LatentFactors.Gradient.Update

/-!
# An update of the thresholds

An update of the thresholds adds one step to each of them and may clamp the
sums, so there are as many as before (`Gradient.length_updateCuts`).  Whatever
the steps are, clamping leaves no increment below the smallest one allowed
(`Gradient.minIncrement_le_of_updateCuts`).
-/

namespace LatentFactors.Gradient

variable {α : Type} [Scalar α]

@[simp] theorem length_clamp (cuts : List α) : (clamp cuts).length = cuts.length := by
  cases cuts with
  | nil => rfl
  | cons first increments => simp [clamp]

theorem length_cutSteps {g : Gradient α} {y : Numeral α} {cuts scores steps : List α}
    {penalty : Setting α} (h : g.cutSteps y cuts scores penalty = .ok steps) :
    steps.length = cuts.length := by
  unfold cutSteps at h
  split at h
  · obtain ⟨probabilities, -, h⟩ := Outcome.bind_eq_ok.1 h
    obtain ⟨c, -, h⟩ := Outcome.bind_eq_ok.1 h
    obtain ⟨p, -, h⟩ := Outcome.bind_eq_ok.1 h
    obtain ⟨slopes, -, h⟩ := Outcome.bind_eq_ok.1 h
    dsimp only at h
    split at h
    · obtain ⟨_, hthrow, -⟩ := Outcome.bind_eq_ok.1 h
      cases hthrow
    · obtain ⟨factor, -, h⟩ := Outcome.bind_eq_ok.1 h
      obtain ⟨rate, -, h⟩ := Outcome.bind_eq_ok.1 h
      cases h
      rw [List.length_mapIdx]
  · injection h with h
    rw [← h, List.length_replicate]

theorem updateCuts_eq_ok {g : Gradient α} {y : Numeral α} {cuts scores new : List α}
    {penalty : Setting α} {clamped : Bool}
    (h : g.updateCuts y cuts scores penalty clamped = .ok new) :
    ∃ steps, g.cutSteps y cuts scores penalty = .ok steps ∧
      new = if clamped then clamp (List.zipWith (· + ·) cuts steps)
        else List.zipWith (· + ·) cuts steps := by
  obtain ⟨steps, hsteps, h⟩ := Outcome.bind_eq_ok.1 h
  injection h with h
  exact ⟨steps, hsteps, h.symm⟩

/-- There are as many new thresholds as old ones. -/
theorem length_updateCuts {g : Gradient α} {y : Numeral α} {cuts scores new : List α}
    {penalty : Setting α} {clamped : Bool}
    (h : g.updateCuts y cuts scores penalty clamped = .ok new) : new.length = cuts.length := by
  obtain ⟨steps, hsteps, rfl⟩ := updateCuts_eq_ok h
  have hsum : (List.zipWith (· + ·) cuts steps).length = cuts.length := by
    rw [List.length_zipWith, length_cutSteps hsteps, Nat.min_self]
  split
  · rw [length_clamp, hsum]
  · exact hsum

/-! ## Clamping in exact arithmetic -/

section Exact

variable {K : Type} [ExactScalar K]

theorem minIncrement_eq : (minIncrement : K) = 1 / 10 ^ 6 := by
  rw [minIncrement, ExactScalar.decimal_eq, Nat.cast_one]

theorem minIncrement_pos : 0 < (minIncrement : K) := by
  have hten : (0 : K) < 10 := by norm_num
  rw [minIncrement_eq]
  exact div_pos one_pos (pow_pos hten 6)

theorem minIncrement_le_of_clamp {cuts : List K} {x : K} (hx : x ∈ (clamp cuts).tail) :
    minIncrement ≤ x := by
  cases cuts with
  | nil => cases hx
  | cons first increments =>
    obtain ⟨increment, -, rfl⟩ := List.mem_map.1 hx
    rw [Scalar.larger_eq_max]
    exact le_max_right increment minIncrement

/-- Whatever the steps are, a clamped update leaves no increment below the
smallest one. -/
theorem minIncrement_le_of_updateCuts {g : Gradient K} {y : Numeral K} {cuts scores new : List K}
    {penalty : Setting K} (h : g.updateCuts y cuts scores penalty true = .ok new) {x : K}
    (hx : x ∈ new.tail) : minIncrement ≤ x := by
  obtain ⟨steps, -, rfl⟩ := updateCuts_eq_ok h
  exact minIncrement_le_of_clamp hx

end Exact

end LatentFactors.Gradient
