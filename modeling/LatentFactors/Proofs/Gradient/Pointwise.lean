import LatentFactors.Proofs.Vec.Entries
import LatentFactors.Gradient.Update

/-!
# An update, entry by entry

`Gradient.updateFamily` walks over the indices at which a feature is nonzero
and writes the stepped entries of all classes.  Seen from a single entry the
walk is simple.  The new family is aligned with the old one: it has as many
vectors, of the same kinds and sizes (`Gradient.updateFamily_aligned`).  At an
index that was walked over, an entry is the old one plus its step, and all
steps come from the old family (`Gradient.entry_updateFamily_of_mem`).  Every
other entry is the old one (`Gradient.entry_updateFamily_of_not_mem`).

`Gradient.exists_updateFamily` says when an update succeeds.
-/

namespace LatentFactors

variable {α : Type} [Scalar α]

/-- As many vectors, of the same kinds and sizes. -/
structure Aligned (old new : Family α) : Prop where
  length : new.length = old.length
  vector {c : Nat} {v w : Vec α} (hv : old[c]? = some v) (hw : new[c]? = some w) :
    w.isSparse = v.isSparse ∧ w.size = v.size

/-- The indices that an update walks over. -/
def Features.walked (features : Features α) (kept : Option Int) : List Nat :=
  (supportUnion features.vectors).filter fun (i : Nat) => kept ≠ some (i : Int)

/-- The walk visits the indices where a feature is nonzero, except for the one
that is kept. -/
theorem Features.mem_walked {features : Features α} {kept : Option Int} {i : Nat} :
    i ∈ features.walked kept ↔
      (∃ f ∈ features.vectors, i ∈ f.support) ∧ kept ≠ some (i : Int) := by
  rw [walked, List.mem_filter, mem_supportUnion, decide_eq_true_iff]

namespace Aligned

omit [Scalar α]

theorem refl (family : Family α) : Aligned family family := by
  refine ⟨rfl, fun hv hw => ?_⟩
  rw [hv] at hw
  cases hw
  exact ⟨rfl, rfl⟩

theorem exists_old {old new : Family α} (h : Aligned old new) {c : Nat} {w : Vec α}
    (hw : new[c]? = some w) :
    ∃ v, old[c]? = some v ∧ w.isSparse = v.isSparse ∧ w.size = v.size := by
  obtain ⟨hc, -⟩ := List.getElem?_eq_some_iff.1 hw
  have hlt : c < old.length := by
    rw [← h.length]
    exact hc
  have hv : old[c]? = some old[c] := List.getElem?_eq_getElem hlt
  exact ⟨_, hv, h.vector hv hw⟩

theorem exists_new {old new : Family α} (h : Aligned old new) {c : Nat} {v : Vec α}
    (hv : old[c]? = some v) :
    ∃ w, new[c]? = some w ∧ w.isSparse = v.isSparse ∧ w.size = v.size := by
  obtain ⟨hc, -⟩ := List.getElem?_eq_some_iff.1 hv
  have hlt : c < new.length := by
    rw [h.length]
    exact hc
  have hw : new[c]? = some new[c] := List.getElem?_eq_getElem hlt
  exact ⟨_, hw, h.vector hv hw⟩

end Aligned

namespace Gradient

/-! ## One index -/

/-- The write at one index adds the step of every class to its old entry. -/
theorem getElem?_writeSteps {i : Nat} {steps : List α} {old acc next : Family α}
    (h : writeSteps i steps old acc = .ok next) {c : Nat} {v a : Vec α}
    (hv : old[c]? = some v) (ha : acc[c]? = some a) :
    ∃ x, steps[c]? = some x ∧
      ∃ hi : i < a.size, next[c]? = some (a.set i (v.entry i + x) hi) := by
  have hzip : (old.zip acc)[c]? = some (v, a) := List.getElem?_zip_eq_some.2 ⟨hv, ha⟩
  have hplace : (old.zip acc).zipIdx[c]? = some ((v, a), c) := by
    rw [List.getElem?_zipIdx, hzip]
    simp
  obtain ⟨w, hw, hput⟩ := Outcome.getElem?_of_mapM h hplace
  obtain ⟨entry, hentry, hput⟩ := Outcome.bind_eq_ok.1 hput
  obtain ⟨x, hx, hput⟩ := Outcome.bind_eq_ok.1 hput
  obtain ⟨-, rfl⟩ := Vec.get_eq_ok hentry
  obtain ⟨hi, rfl⟩ := Vec.put_eq_ok hput
  exact ⟨x, Outcome.nth_eq_ok_iff.1 hx, hi, hw⟩

theorem aligned_writeSteps {i : Nat} {steps : List α} {old acc next : Family α}
    (h : writeSteps i steps old acc = .ok next) (halign : Aligned old acc) :
    Aligned old next := by
  constructor
  · rw [Outcome.length_of_mapM h, List.length_zipIdx, List.length_zip, halign.length,
      Nat.min_self]
  · intro c v w hv hw
    obtain ⟨a, ha, hkind, hsize⟩ := halign.exists_new hv
    obtain ⟨x, -, hi, hnext⟩ := getElem?_writeSteps h hv ha
    rw [hw] at hnext
    cases hnext
    exact ⟨(Vec.isSparse_set ..).trans hkind, (Vec.size_set ..).trans hsize⟩

/-- The write at an index inside of all vectors succeeds if every class has a
step. -/
theorem exists_writeSteps {i : Nat} {steps : List α} {old acc : Family α}
    (halign : Aligned old acc) (hinside : ∀ v ∈ old, i < v.size)
    (hsteps : old.length ≤ steps.length) : ∃ next, writeSteps i steps old acc = .ok next := by
  refine Outcome.exists_mapM_ok fun ⟨⟨v, a⟩, c⟩ hmem => ?_
  have hzip : (old.zip acc)[c]? = some (v, a) := List.mem_zipIdx_iff_getElem?.1 hmem
  obtain ⟨hv, ha⟩ := List.getElem?_zip_eq_some.1 hzip
  have hiv : i < v.size := hinside v (List.mem_of_getElem? hv)
  have hia : i < a.size := by
    rw [(halign.vector hv ha).2]
    exact hiv
  obtain ⟨hc, -⟩ := List.getElem?_eq_some_iff.1 hv
  have hstep : c < steps.length := lt_of_lt_of_le hc hsteps
  refine ⟨a.set i (v.entry i + steps[c]) hia, ?_⟩
  show (v.get (i : Int) >>= fun e => Outcome.nth steps c >>= fun x => a.put i (e + x)) = _
  rw [Vec.get_natCast hiv, Outcome.bind_ok, Outcome.nth_of_lt hstep, Outcome.bind_ok,
    Vec.put_natCast _ hia]

/-! ## The walk -/

private theorem entry_walk_aux {steps : Nat → Outcome α (List α)} {old : Family α} :
    ∀ (indices : List Nat) (acc new : Family α), Aligned old acc →
      indices.foldlM (fun acc i => do writeSteps (i : Nat) (← steps i) old acc) acc = .ok new →
      Aligned old new ∧
        ∀ (c : Nat) (v a w : Vec α) (i : Nat),
          old[c]? = some v → acc[c]? = some a → new[c]? = some w →
          if i ∈ indices then
            ∃ s x, steps i = .ok s ∧ s[c]? = some x ∧ w.entry i = v.kept (v.entry i + x)
          else w.entry i = a.entry i := by
  intro indices
  induction indices with
  | nil =>
    intro acc new halign h
    injection h with h
    subst h
    refine ⟨halign, fun c v a w i _ ha hw => ?_⟩
    rw [ha] at hw
    cases hw
    simp
  | cons j rest ih =>
    intro acc new halign h
    rw [List.foldlM_cons] at h
    obtain ⟨next, hnext, h⟩ := Outcome.bind_eq_ok.1 h
    obtain ⟨s, hs, hwrite⟩ := Outcome.bind_eq_ok.1 hnext
    obtain ⟨hnew, hentry⟩ := ih next new (aligned_writeSteps hwrite halign) h
    refine ⟨hnew, fun c v a w i hv ha hw => ?_⟩
    obtain ⟨x, hx, hj, hu⟩ := getElem?_writeSteps hwrite hv ha
    have hlater := hentry c v _ w i hv hu hw
    by_cases hrest : i ∈ rest
    · rw [if_pos hrest] at hlater
      rw [if_pos (List.mem_cons_of_mem j hrest)]
      exact hlater
    · rw [if_neg hrest, Vec.entry_set] at hlater
      by_cases hij : j = i
      · subst hij
        rw [if_pos rfl, Vec.kept_congr (halign.vector hv ha).1] at hlater
        rw [if_pos List.mem_cons_self]
        exact ⟨s, x, hs, hx, hlater⟩
      · rw [if_neg hij] at hlater
        rw [if_neg fun hmem => (List.mem_cons.1 hmem).elim (fun he => hij he.symm) hrest]
        exact hlater

section Update

variable {g : Gradient α} {parameters : Family α} {features : Features α} {y : Numeral α}
  {prediction : List α} {penalties : Penalties α} {kept : Option Int}

omit [Scalar α] in
theorem findMismatch_eq_none {parameters features : Family α} :
    findMismatch parameters features = none ↔
      ∀ p ∈ parameters, ∀ f ∈ features, p.size = f.size := by
  simp [findMismatch, List.findSome?_eq_none_iff]

/-- An update of vectors of one size is a walk over the listed indices. -/
theorem updateFamily_eq_walk
    (hsizes : ∀ p ∈ parameters, ∀ f ∈ features.vectors, p.size = f.size)
    (hne : features.vectors ≠ []) (hlistable : ∀ f ∈ features.vectors, f.IsListable) :
    g.updateFamily parameters features y prediction penalties kept =
      (features.walked kept).foldlM (fun acc (i : Nat) => do
        writeSteps i (← g.steps i y parameters features prediction (penalties.forIndex i))
          parameters acc) parameters := by
  rw [updateFamily, findMismatch_eq_none.2 hsizes]
  simp only [List.isEmpty_iff, hne, if_false]
  rw [nonzeroUnion_eq_ok_iff.2 ⟨hlistable, rfl⟩]
  rfl

/-- An update that succeeds is a walk over vectors of one size, all of them listed. -/
theorem updateFamily_eq_ok {new : Family α}
    (h : g.updateFamily parameters features y prediction penalties kept = .ok new) :
    (∀ p ∈ parameters, ∀ f ∈ features.vectors, p.size = f.size) ∧
      (∀ f ∈ features.vectors, f.IsListable) ∧
      (features.walked kept).foldlM (fun acc (i : Nat) => do
        writeSteps i (← g.steps i y parameters features prediction (penalties.forIndex i))
          parameters acc) parameters = .ok new := by
  rw [updateFamily] at h
  split at h
  · cases h
  · next hmatch =>
    split at h
    · cases h
    · obtain ⟨indices, hindices, hwalk⟩ := Outcome.bind_eq_ok.1 h
      obtain ⟨hlistable, rfl⟩ := nonzeroUnion_eq_ok_iff.1 hindices
      exact ⟨findMismatch_eq_none.1 hmatch, hlistable, hwalk⟩

/-- There is nothing to walk over without a feature. -/
theorem features_ne_nil {new : Family α}
    (h : g.updateFamily parameters features y prediction penalties kept = .ok new) :
    features.vectors ≠ [] := by
  rw [updateFamily] at h
  split at h
  · cases h
  · split at h
    · cases h
    · next hne =>
      rw [List.isEmpty_iff] at hne
      exact hne

/-- The new family has as many vectors as the old one, of the same kinds and
sizes. -/
theorem updateFamily_aligned {new : Family α}
    (h : g.updateFamily parameters features y prediction penalties kept = .ok new) :
    Aligned parameters new :=
  (entry_walk_aux _ _ _ (.refl parameters) (updateFamily_eq_ok h).2.2).1

/-- At an index that was walked over, the step from the old family is added. -/
theorem entry_updateFamily_of_mem {new : Family α}
    (h : g.updateFamily parameters features y prediction penalties kept = .ok new)
    {c i : Nat} {v w : Vec α} (hv : parameters[c]? = some v) (hw : new[c]? = some w)
    (hi : i ∈ features.walked kept) :
    ∃ s x, g.steps i y parameters features prediction (penalties.forIndex i) = .ok s ∧
      s[c]? = some x ∧ w.entry i = v.kept (v.entry i + x) := by
  have hentry := (entry_walk_aux _ _ _ (.refl parameters) (updateFamily_eq_ok h).2.2).2 c v v w i
    hv hv hw
  rwa [if_pos hi] at hentry

/-- At every other index the entry stays. -/
theorem entry_updateFamily_of_not_mem {new : Family α}
    (h : g.updateFamily parameters features y prediction penalties kept = .ok new)
    {c i : Nat} {v w : Vec α} (hv : parameters[c]? = some v) (hw : new[c]? = some w)
    (hi : i ∉ features.walked kept) : w.entry i = v.entry i := by
  have hentry := (entry_walk_aux _ _ _ (.refl parameters) (updateFamily_eq_ok h).2.2).2 c v v w i
    hv hv hw
  rwa [if_neg hi] at hentry

/-- An update succeeds if parameters and features have one size, the features can be
listed, and every class has a step at every index of the walk. -/
theorem exists_updateFamily
    (hsizes : ∀ p ∈ parameters, ∀ f ∈ features.vectors, p.size = f.size)
    (hne : features.vectors ≠ []) (hlistable : ∀ f ∈ features.vectors, f.IsListable)
    (hsteps : ∀ i ∈ features.walked kept, ∃ s,
      g.steps i y parameters features prediction (penalties.forIndex i) = .ok s ∧
        parameters.length ≤ s.length) :
    ∃ new, g.updateFamily parameters features y prediction penalties kept = .ok new := by
  have hwalk : ∃ new, (features.walked kept).foldlM (fun acc (i : Nat) => do
      writeSteps i (← g.steps i y parameters features prediction (penalties.forIndex i))
        parameters acc) parameters = .ok new ∧ Aligned parameters new := by
    refine Outcome.foldlM_ok (.refl parameters) fun acc halign i hi => ?_
    obtain ⟨s, hs, hlength⟩ := hsteps i hi
    obtain ⟨⟨f, hf, hlisted⟩, -⟩ := Features.mem_walked.1 hi
    have hinside : ∀ p ∈ parameters, i < p.size := fun p hp => by
      rw [hsizes p hp f hf]
      exact (Vec.nonzero_of_mem_support hlisted).1
    obtain ⟨next, hnext⟩ := exists_writeSteps halign hinside hlength
    refine ⟨next, ?_, aligned_writeSteps hnext halign⟩
    rw [hs, Outcome.bind_ok]
    exact hnext
  obtain ⟨new, hnew, -⟩ := hwalk
  exact ⟨new, (updateFamily_eq_walk hsizes hne hlistable).trans hnew⟩

end Update

end Gradient

end LatentFactors
