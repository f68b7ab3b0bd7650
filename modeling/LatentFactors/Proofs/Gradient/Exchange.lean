import LatentFactors.Proofs.Gradient.Pointwise
import LatentFactors.Proofs.Vec.Exchange

/-!
# Updates of exchanged families

An update does not care which of the two sides is the user: if both families
are exchanged, and the penalties do not tell index one from index two, then the
steps at an index are those at the exchanged index
(`Gradient.steps_exchanged`), and the updated family is exchanged
(`Gradient.updateFamily_exchanged`).  No law of the arithmetic is needed, only
that the walk finds the same entries.
-/

namespace LatentFactors.Gradient

variable {α : Type} [Scalar α] {g : Gradient α} {y : Numeral α} {own other new : Family α}
  {prediction : List α} {penalty : Setting α} {penalties : Penalties α}

/-! ## Steps -/

theorem direction_exchanged (i : Nat) (err : α) {feature parameter : Vec α}
    (hfeature : feature.IsFactor) (hparameter : parameter.IsFactor) (penalty : Setting α) :
    direction i err feature.exchanged parameter.exchanged penalty =
      direction (exchangedIndex i : Nat) err feature parameter penalty := by
  have hzero : (i : Int) = 0 ↔ (exchangedIndex i : Int) = 0 := by
    rw [Int.natCast_eq_zero, Int.natCast_eq_zero, exchangedIndex_eq_zero_iff]
  rw [direction, direction, Vec.get_exchanged hfeature, Vec.get_exchanged hparameter]
  simp only [hzero]

private theorem defaultSteps_exchanged_aux (i : Nat) (hown : own.AreFactors)
    (hother : other.AreFactors) :
    g.defaultSteps i y own.exchanged other.exchanged prediction penalty =
      g.defaultSteps (exchangedIndex i : Nat) y own other prediction penalty := by
  match own, hown with
  | [], _ => rfl
  | v :: w :: rest, _ =>
    have hlength := Family.length_exchanged (v :: w :: rest)
    exact congrArg (fun n => Except.error (Fault.needsOneVector n)) hlength
  | [p], hown =>
    have hp : p.IsFactor := hown p List.mem_cons_self
    rw [Family.exchanged, List.map_singleton, defaultSteps, defaultSteps]
    refine bind_congr fun first => bind_congr fun value => ?_
    refine Family.bind_nth_exchanged 0 fun f hf => ?_
    rw [direction_exchanged i (value - first) (hother f hf) hp]

private theorem softmaxSteps_exchanged_aux (i : Nat) (hown : own.AreFactors)
    (hother : other.AreFactors) :
    g.softmaxSteps i y own.exchanged other.exchanged prediction penalty =
      g.softmaxSteps (exchangedIndex i : Nat) y own other prediction penalty := by
  have hplaces : (other.exchanged.zip own.exchanged).zipIdx =
      (other.zip own).zipIdx.map (Prod.map (Prod.map Vec.exchanged Vec.exchanged) id) := by
    rw [Family.exchanged, Family.exchanged, List.zip_map, List.zipIdx_map]
  rw [softmaxSteps, softmaxSteps, Family.length_exchanged, hplaces]
  split
  · rfl
  · refine bind_congr fun label => ?_
    refine congrArg (· >>= _) (Outcome.mapM_eq_mapM ?_)
    rw [List.forall₂_map_left_iff, List.forall₂_same]
    rintro ⟨⟨f, p⟩, c⟩ hmem
    have hzip : (other.zip own)[c]? = some (f, p) := List.mem_zipIdx_iff_getElem?.1 hmem
    obtain ⟨hf, hp⟩ := List.getElem?_zip_eq_some.1 hzip
    refine bind_congr fun probability => ?_
    exact direction_exchanged i _ (hother f (List.mem_of_getElem? hf))
      (hown p (List.mem_of_getElem? hp)) penalty

private theorem ordinalSteps_exchanged_aux (i : Nat) (hown : own.AreFactors)
    (hother : other.AreFactors) :
    g.ordinalSteps i y own.exchanged other.exchanged prediction penalty =
      g.ordinalSteps (exchangedIndex i : Nat) y own other prediction penalty := by
  have hzero : (i : Int) = 0 ↔ (exchangedIndex i : Int) = 0 := by
    rw [Int.natCast_eq_zero, Int.natCast_eq_zero, exchangedIndex_eq_zero_iff]
  rw [ordinalSteps, ordinalSteps]
  refine bind_congr fun c => Family.bind_nth_exchanged 0 fun f hf => ?_
  rw [Vec.get_exchanged (hother f hf)]
  refine bind_congr fun feature => bind_congr fun slopes => bind_congr fun probability => ?_
  simp only [hzero]
  split
  · rfl
  · refine Family.bind_nth_exchanged 0 fun p hp => ?_
    rw [Vec.get_exchanged (hown p hp)]

/-- The steps of exchanged families at an index are those of the families at the
exchanged index. -/
theorem steps_exchanged (i : Nat) (hown : own.AreFactors) (hother : other.AreFactors) :
    g.steps i y own.exchanged (.perClass other.exchanged) prediction penalty =
      g.steps (exchangedIndex i : Nat) y own (.perClass other) prediction penalty := by
  rw [steps, steps, Features.forClasses, Features.forClasses, Family.length_exchanged,
    Family.length_exchanged]
  split
  · rw [Outcome.bind_error, Outcome.bind_error]
  · rw [Outcome.bind_ok, Outcome.bind_ok]
    split
    · exact defaultSteps_exchanged_aux i hown hother
    · exact softmaxSteps_exchanged_aux i hown hother
    · exact ordinalSteps_exchanged_aux i hown hother

/-! ## Updates -/

variable [ZeroLaw α]

/-- The walk over exchanged features visits the exchanged indices. -/
theorem mem_walked_exchanged {k i : Nat} (hother : other.AreFactors) :
    i ∈ (Features.perClass other.exchanged).walked (some (exchangedIndex k : Nat)) ↔
      exchangedIndex i ∈ (Features.perClass other).walked (some (k : Int)) := by
  rw [Features.mem_walked, Features.mem_walked]
  have hlisted : (∃ f ∈ other.exchanged, i ∈ f.support) ↔
      ∃ f ∈ other, exchangedIndex i ∈ f.support := by
    constructor
    · rintro ⟨w, hw, hi⟩
      obtain ⟨f, hf, rfl⟩ := List.mem_map.1 hw
      exact ⟨f, hf, (Vec.mem_support_exchanged (hother f hf)).1 hi⟩
    · rintro ⟨f, hf, hi⟩
      exact ⟨f.exchanged, List.mem_map_of_mem hf,
        (Vec.mem_support_exchanged (hother f hf)).2 hi⟩
  have hkept : exchangedIndex k = i ↔ k = exchangedIndex i := by
    constructor
    · rintro rfl
      exact (exchangedIndex_exchangedIndex k).symm
    · rintro rfl
      exact exchangedIndex_exchangedIndex i
  simp only [Features.vectors, hlisted, ne_eq, Option.some.injEq, Nat.cast_inj, hkept]

section

variable {k : Nat} (hown : own.AreFactors) (hother : other.AreFactors)
  (hpenalties : ∀ i : Nat, penalties.forIndex (exchangedIndex i : Nat) = penalties.forIndex i)
  (h : g.updateFamily own (.perClass other) y prediction penalties (some (k : Int)) = .ok new)

include hown hother hpenalties h

/-- If a family can be updated, so can the exchanged one. -/
theorem exists_updateFamily_exchanged (hne : own ≠ []) :
    ∃ new', g.updateFamily own.exchanged (.perClass other.exchanged) y prediction penalties
      (some (exchangedIndex k : Nat)) = .ok new' := by
  refine exists_updateFamily ?_ ?_ ?_ ?_
  · intro p hp f hf
    obtain ⟨v, hv, rfl⟩ := List.mem_map.1 hp
    obtain ⟨w, hw, rfl⟩ := List.mem_map.1 hf
    rw [Vec.size_exchanged, Vec.size_exchanged]
    exact (updateFamily_eq_ok h).1 v hv w hw
  · exact fun hnil => features_ne_nil h (List.map_eq_nil_iff.1 hnil)
  · intro f hf
    obtain ⟨w, hw, rfl⟩ := List.mem_map.1 hf
    exact (hother w hw).exchanged.isListable
  · -- An index has the steps of the exchanged one, and these reach up to the last class.
    intro i hi
    have hlast : own.length - 1 < own.length := Nat.sub_lt (List.length_pos_iff.2 hne) Nat.one_pos
    have hv : own[own.length - 1]? = some own[own.length - 1] := List.getElem?_eq_getElem hlast
    obtain ⟨w, hw, -⟩ := (updateFamily_aligned h).exists_new hv
    obtain ⟨s, x, hs, hx, -⟩ :=
      entry_updateFamily_of_mem h hv hw ((mem_walked_exchanged hother).1 hi)
    obtain ⟨hlt, -⟩ := List.getElem?_eq_some_iff.1 hx
    refine ⟨s, ?_, ?_⟩
    · rw [steps_exchanged i hown hother, ← hpenalties i, hs]
    · rw [Family.length_exchanged]
      omega

/-- An updated entry of an exchanged family is the updated entry of the family at
the exchanged index. -/
theorem entry_updateFamily_exchanged {new' : Family α} {c : Nat} {v w w' : Vec α}
    (h' : g.updateFamily own.exchanged (.perClass other.exchanged) y prediction penalties
      (some (exchangedIndex k : Nat)) = .ok new')
    (hv : own[c]? = some v) (hw : new[c]? = some w) (hw' : new'[c]? = some w') (i : Nat) :
    w'.entry i = w.entry (exchangedIndex i) := by
  have hfactor : v.IsFactor := hown v (List.mem_of_getElem? hv)
  have hv' : own.exchanged[c]? = some v.exchanged := by
    rw [Family.getElem?_exchanged, hv, Option.map_some]
  by_cases hi : i ∈ (Features.perClass other.exchanged).walked (some (exchangedIndex k : Nat))
  · obtain ⟨s', x', hs', hx', hentry'⟩ := entry_updateFamily_of_mem h' hv' hw' hi
    obtain ⟨s, x, hs, hx, hentry⟩ :=
      entry_updateFamily_of_mem h hv hw ((mem_walked_exchanged hother).1 hi)
    rw [steps_exchanged i hown hother, ← hpenalties i, hs] at hs'
    cases hs'
    rw [hx] at hx'
    cases hx'
    rw [hentry', hentry, Vec.entry_exchanged hfactor, Vec.kept_congr (Vec.isSparse_exchanged v)]
  · have hstays : exchangedIndex i ∉ (Features.perClass other).walked (some (k : Int)) :=
      fun hmem => hi ((mem_walked_exchanged hother).2 hmem)
    rw [entry_updateFamily_of_not_mem h' hv' hw' hi, entry_updateFamily_of_not_mem h hv hw hstays,
      Vec.entry_exchanged hfactor]

/-- The update of an exchanged family is the exchanged update. -/
theorem updateFamily_exchanged (hne : own ≠ []) :
    g.updateFamily own.exchanged (.perClass other.exchanged) y prediction penalties
      (some (exchangedIndex k : Nat)) = .ok new.exchanged := by
  obtain ⟨new', h'⟩ := exists_updateFamily_exchanged hown hother hpenalties h hne
  have halign := updateFamily_aligned h
  have halign' := updateFamily_aligned h'
  rw [h']
  refine congrArg Except.ok (List.ext_getElem? fun c => ?_)
  rw [Family.getElem?_exchanged]
  cases hw : new[c]? with
  | none =>
    rw [List.getElem?_eq_none_iff] at hw
    refine List.getElem?_eq_none_iff.2 ?_
    rwa [halign'.length, Family.length_exchanged, ← halign.length]
  | some w =>
    obtain ⟨v, hv, hkind, hsize⟩ := halign.exists_old hw
    have hfactor : v.IsFactor := hown v (List.mem_of_getElem? hv)
    have hnew : w.IsFactor := ⟨hkind.trans hfactor.dense, hsize.symm ▸ hfactor.room⟩
    have hv' : own.exchanged[c]? = some v.exchanged := by
      rw [Family.getElem?_exchanged, hv, Option.map_some]
    obtain ⟨w', hw', hkind', hsize'⟩ := halign'.exists_new hv'
    rw [hw', Option.map_some, Option.some.injEq]
    refine Vec.ext_of_dense (hkind'.trans hfactor.exchanged.dense) hnew.exchanged.dense ?_ ?_
    · rw [hsize', Vec.size_exchanged, Vec.size_exchanged, hsize]
    · intro i
      rw [Vec.entry_exchanged hnew]
      exact entry_updateFamily_exchanged hown hother hpenalties h h' hv hw hw' i

end

end LatentFactors.Gradient
