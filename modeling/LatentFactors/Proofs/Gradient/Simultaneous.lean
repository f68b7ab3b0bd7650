import LatentFactors.Proofs.Arithmetic.Rational
import LatentFactors.Proofs.Gradient.Pointwise

/-!
# Updates are simultaneous

The walk of an update visits one index after the other and writes to the vectors that the
indices before it have left.  Nothing of that shows in the result: it is a
`SimultaneousUpdate`, in which every class has the same indices moved, each of them once
and by a step from the old family.  The indices that move are told from the features
alone (`Features.Moves`), however many classes share them.

* `Gradient.updateFamily_mismatch`: vectors of different sizes are refused before anything
  is asked of the gradient.
* `Gradient.exists_updateFamily_iff`: an update of vectors of one size fails only where a
  feature cannot be listed, there is none, or the gradient has no step for some class.
* `Gradient.simultaneousUpdate_of_updateFamily`: and what it gives is simultaneous.
-/

namespace LatentFactors

variable {α : Type} [Scalar α]

/-- Whether an index is updated: one of the features is nonzero there, and the index is
not the one to be kept. -/
def Features.Moves (features : Features α) (kept : Option Int) (i : Nat) : Prop :=
  kept ≠ some (i : Int) ∧ ∃ f ∈ features.vectors, Scalar.nonzero (f.entry i) = true

/-- A new family beside the old one that it was made from by one step for every class at
every index that moves.  A sparse vector has only one zero, whichever zero is written to
it. -/
structure SimultaneousUpdate (steps : Nat → Outcome α (List α)) (moves : Nat → Prop)
    (old new : Family α) : Prop where
  aligned : Aligned old new
  moved {c i : Nat} {v w : Vec α} (hv : old[c]? = some v) (hw : new[c]? = some w)
    (hi : moves i) : ∃ s x, steps i = .ok s ∧ s[c]? = some x ∧
      (w.entry i = v.entry i + x ∨
        w.isSparse = true ∧ Scalar.nonzero (v.entry i + x) = false ∧ w.entry i = 0)
  unmoved {c i : Nat} {v w : Vec α} (hv : old[c]? = some v) (hw : new[c]? = some w)
    (hi : ¬ moves i) : w.entry i = v.entry i

/-- The walk of an update visits the indices that move. -/
theorem Features.mem_walked_iff_moves [ZeroLaw α] {features : Features α} {kept : Option Int}
    {i : Nat} : i ∈ features.walked kept ↔ features.Moves kept i := by
  rw [mem_walked, Moves, and_comm]
  refine and_congr_right fun _ => exists_congr fun f => and_congr_right fun _ => ?_
  rw [Vec.mem_support, and_iff_right_iff_imp]
  intro hnonzero
  by_contra hout
  rw [Vec.entry_of_size_le (Nat.le_of_not_lt hout), Scalar.nonzero_zero] at hnonzero
  cases hnonzero

/-- What a vector keeps of a number is the number or a zero in its place. -/
theorem Vec.kept_eq_or {v : Vec α} (x : α) :
    v.kept x = x ∨ v.isSparse = true ∧ Scalar.nonzero x = false ∧ v.kept x = 0 := by
  cases v with
  | dense xs => exact .inl rfl
  | sparse v =>
    by_cases hx : Scalar.nonzero x = true
    · exact .inl (if_pos hx)
    · exact .inr ⟨rfl, Bool.eq_false_iff.2 hx, if_neg hx⟩

/-- In exact arithmetic there is one zero, so every class gets its step in full. -/
theorem SimultaneousUpdate.entry_eq {K : Type} [ExactScalar K]
    {steps : Nat → Outcome K (List K)} {moves : Nat → Prop} {old new : Family K}
    (h : SimultaneousUpdate steps moves old new) {c i : Nat} {v w : Vec K} {s : List K} {x : K}
    (hv : old[c]? = some v) (hw : new[c]? = some w) (hi : moves i) (hs : steps i = .ok s)
    (hx : s[c]? = some x) : w.entry i = v.entry i + x := by
  obtain ⟨s', x', hs', hx', hentry⟩ := h.moved hv hw hi
  obtain rfl : s = s' := Except.ok.inj (hs.symm.trans hs')
  obtain rfl : x = x' := Option.some.inj (hx.symm.trans hx')
  rcases hentry with hentry | ⟨-, hzero, hentry⟩
  · exact hentry
  · have hsum : v.entry i + x = 0 := by
      by_contra hne
      rw [Scalar.nonzero_iff.2 hne] at hzero
      cases hzero
    rw [hentry, hsum]

namespace Gradient

omit [Scalar α] in
theorem exists_of_findMismatch {parameters features : Family α} {sizes : Nat × Nat}
    (h : findMismatch parameters features = some sizes) :
    ∃ p ∈ parameters, ∃ f ∈ features, p.size ≠ f.size ∧ sizes = (p.size, f.size) := by
  obtain ⟨p, hp, h⟩ := List.exists_of_findSome?_eq_some h
  obtain ⟨f, hf, h⟩ := List.exists_of_findSome?_eq_some h
  split at h
  · cases h
  · next hne =>
    cases h
    exact ⟨p, hp, f, hf, hne, rfl⟩

/-- If one index of a walk is written, then every class has a step there. -/
theorem length_le_of_writeSteps {i : Nat} {steps : List α} {old acc next : Family α}
    (h : writeSteps i steps old acc = .ok next) (halign : Aligned old acc) :
    old.length ≤ steps.length := by
  by_contra hshort
  have hc : steps.length < old.length := Nat.lt_of_not_le hshort
  have hv : old[steps.length]? = some old[steps.length] := List.getElem?_eq_getElem hc
  obtain ⟨a, ha, -⟩ := halign.exists_new hv
  obtain ⟨x, hx, -⟩ := getElem?_writeSteps h hv ha
  rw [List.getElem?_eq_none (Nat.le_refl _)] at hx
  cases hx

/-- Where a walk succeeds, the gradient has steps for all classes. -/
theorem exists_steps_of_walk {steps : Nat → Outcome α (List α)} {old : Family α}
    {indices : List Nat} {acc new : Family α} (halign : Aligned old acc)
    (h : indices.foldlM (fun acc i => do writeSteps (i : Nat) (← steps i) old acc) acc = .ok new)
    {i : Nat} (hi : i ∈ indices) : ∃ s, steps i = .ok s ∧ old.length ≤ s.length := by
  induction indices generalizing acc with
  | nil => cases hi
  | cons j rest ih =>
    rw [List.foldlM_cons] at h
    obtain ⟨next, hnext, hrest⟩ := Outcome.bind_eq_ok.1 h
    obtain ⟨s, hs, hwrite⟩ := Outcome.bind_eq_ok.1 hnext
    rcases List.mem_cons.1 hi with rfl | hi
    · exact ⟨s, hs, length_le_of_writeSteps hwrite halign⟩
    · exact ih (aligned_writeSteps hwrite halign) hrest hi

section Update

variable {g : Gradient α} {parameters : Family α} {features : Features α} {y : Numeral α}
  {prediction : List α} {penalties : Penalties α} {kept : Option Int}

/-- Parameters and features of different sizes are refused, whatever the gradient would
make of them. -/
theorem updateFamily_mismatch
    (h : ∃ p ∈ parameters, ∃ f ∈ features.vectors, p.size ≠ f.size) :
    ∃ p ∈ parameters, ∃ f ∈ features.vectors, p.size ≠ f.size ∧
      g.updateFamily parameters features y prediction penalties kept =
        .error (.parameterMismatch p.size f.size) := by
  rw [updateFamily]
  cases hmatch : findMismatch parameters features.vectors with
  | some sizes =>
    obtain ⟨p, hp, f, hf, hne, rfl⟩ := exists_of_findMismatch hmatch
    exact ⟨p, hp, f, hf, hne, rfl⟩
  | none =>
    obtain ⟨p, hp, f, hf, hne⟩ := h
    exact absurd (findMismatch_eq_none.1 hmatch p hp f hf) hne

variable [ZeroLaw α]

/-- Vectors of one size are updated exactly if there is a feature, all features can be
listed and every class has a step wherever an index moves. -/
theorem exists_updateFamily_iff
    (hsizes : ∀ p ∈ parameters, ∀ f ∈ features.vectors, p.size = f.size) :
    (∃ new, g.updateFamily parameters features y prediction penalties kept = .ok new) ↔
      features.vectors ≠ [] ∧ (∀ f ∈ features.vectors, f.IsListable) ∧
        ∀ i, features.Moves kept i → ∃ s,
          g.steps i y parameters features prediction (penalties.forIndex i) = .ok s ∧
            parameters.length ≤ s.length := by
  constructor
  · rintro ⟨new, hnew⟩
    obtain ⟨-, hlistable, hwalk⟩ := updateFamily_eq_ok hnew
    refine ⟨features_ne_nil hnew, hlistable, fun i hi => ?_⟩
    exact exists_steps_of_walk (.refl parameters) hwalk (Features.mem_walked_iff_moves.2 hi)
  · rintro ⟨hne, hlistable, hsteps⟩
    exact exists_updateFamily hsizes hne hlistable fun i hi =>
      hsteps i (Features.mem_walked_iff_moves.1 hi)

/-- What an update gives is simultaneous. -/
theorem simultaneousUpdate_of_updateFamily {new : Family α}
    (h : g.updateFamily parameters features y prediction penalties kept = .ok new) :
    SimultaneousUpdate
      (fun i => g.steps i y parameters features prediction (penalties.forIndex i))
      (features.Moves kept) parameters new where
  aligned := updateFamily_aligned h
  moved hv hw hi := by
    obtain ⟨s, x, hs, hx, hentry⟩ :=
      entry_updateFamily_of_mem h hv hw (Features.mem_walked_iff_moves.2 hi)
    refine ⟨s, x, hs, hx, ?_⟩
    rw [hentry, ((updateFamily_aligned h).vector hv hw).1]
    exact Vec.kept_eq_or _
  unmoved hv hw hi :=
    entry_updateFamily_of_not_mem h hv hw fun hmem => hi (Features.mem_walked_iff_moves.1 hmem)

end Update

end Gradient

/-- Vectors of different sizes are refused.  Vectors of one size are updated
simultaneously, if there is a feature, all features can be listed and the gradient has a
step for every class wherever an index moves. -/
theorem updates_are_simultaneous [ZeroLaw α] (g : Gradient α) (parameters : Family α)
    (features : Features α) (y : Numeral α) (prediction : List α) (penalties : Penalties α)
    (kept : Option Int) :
    ((∃ p ∈ parameters, ∃ f ∈ features.vectors, p.size ≠ f.size) →
      ∃ p ∈ parameters, ∃ f ∈ features.vectors, p.size ≠ f.size ∧
        g.updateFamily parameters features y prediction penalties kept =
          .error (.parameterMismatch p.size f.size)) ∧
    ((∀ p ∈ parameters, ∀ f ∈ features.vectors, p.size = f.size) →
      ((∃ new, g.updateFamily parameters features y prediction penalties kept = .ok new) ↔
        features.vectors ≠ [] ∧ (∀ f ∈ features.vectors, f.IsListable) ∧
          ∀ i, features.Moves kept i → ∃ s,
            g.steps i y parameters features prediction (penalties.forIndex i) = .ok s ∧
              parameters.length ≤ s.length) ∧
      ∀ new, g.updateFamily parameters features y prediction penalties kept = .ok new →
        SimultaneousUpdate
          (fun i => g.steps i y parameters features prediction (penalties.forIndex i))
          (features.Moves kept) parameters new) :=
  ⟨Gradient.updateFamily_mismatch, fun hsizes =>
    ⟨Gradient.exists_updateFamily_iff hsizes, fun _ hnew =>
      Gradient.simultaneousUpdate_of_updateFamily hnew⟩⟩

/-- Two classes, one of them with a sparse vector.  Both features are nonzero at index one,
which moves once, and only one of them is at index two, which is kept.  A feature of two
entries does not go with the parameters. -/
theorem updates_are_simultaneous_rational :
    let g : Gradient ℚ := ⟨.softmax, .softmax, .ofInt 1⟩
    let parameters : Family ℚ := [.dense #[1, 2, 3], .sparse (.zero 3)]
    let features : Features ℚ := .perClass [.dense #[0, 1, 5], .dense #[0, 2, 0]]
    let short : Features ℚ := .shared (.dense #[0, 1])
    let penalties : Penalties ℚ := ⟨.ofInt 1, .ofInt 0, []⟩
    let update := fun fs => g.updateFamily parameters fs (.integer 0) [1 / 2, 1 / 2] penalties
      (some 2)
    (∀ p ∈ parameters, ∀ f ∈ features.vectors, p.size = f.size) ∧
    (∃ (new : Family ℚ) (v w : Vec ℚ),
      update features = .ok new ∧ new[0]? = some v ∧ new[1]? = some w ∧
      v.entry 1 = 1 / 2 ∧ v.entry 2 = 3 ∧ w.isSparse = true ∧ w.entry 1 = -1) ∧
    (∃ p ∈ parameters, ∃ f ∈ short.vectors, p.size ≠ f.size) ∧
    ∃ p f, update short = .error (.parameterMismatch p f) := by
  intro g parameters features short penalties update
  have hsizes : ∀ p ∈ parameters, ∀ f ∈ features.vectors, p.size = f.size := by decide +kernel
  have hshort : ∃ p ∈ parameters, ∃ f ∈ short.vectors, p.size ≠ f.size := by decide +kernel
  have hsteps : g.steps (1 : Nat) (.integer 0) parameters features [1 / 2, 1 / 2]
      (penalties.forIndex (1 : Nat)) = .ok [-(3 / 2), -1] := by decide +kernel
  obtain ⟨-, hupdate⟩ := updates_are_simultaneous g parameters features (.integer 0)
    [1 / 2, 1 / 2] penalties (some 2)
  obtain ⟨hmismatch, -⟩ := updates_are_simultaneous g parameters short (.integer 0)
    [1 / 2, 1 / 2] penalties (some 2)
  obtain ⟨new, hnew, -⟩ : ∃ new, update features = .ok new ∧ True := by decide +kernel
  have hsimultaneous := (hupdate hsizes).2 new hnew
  obtain ⟨v, hv, -⟩ := hsimultaneous.aligned.exists_new (c := 0) rfl
  obtain ⟨w, hw, hkind, -⟩ := hsimultaneous.aligned.exists_new (c := 1) rfl
  have hmoves : features.Moves (some 2) 1 :=
    ⟨by decide, .dense #[0, 1, 5], List.mem_cons_self, by decide +kernel⟩
  have hkept : ¬ features.Moves (some 2) 2 := fun h => h.1 rfl
  refine ⟨hsizes, ⟨new, v, w, hnew, hv, hw, ?_, ?_, hkind, ?_⟩, hshort, ?_⟩
  · exact (hsimultaneous.entry_eq (c := 0) rfl hv hmoves hsteps rfl).trans (by decide +kernel)
  · exact (hsimultaneous.unmoved (c := 0) rfl hv hkept).trans (by decide +kernel)
  · exact (hsimultaneous.entry_eq (c := 1) rfl hw hmoves hsteps rfl).trans (by decide +kernel)
  · obtain ⟨p, -, f, -, -, herror⟩ := hmismatch hshort
    exact ⟨p.size, f.size, herror⟩

end LatentFactors
