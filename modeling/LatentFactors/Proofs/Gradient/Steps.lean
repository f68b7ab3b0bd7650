import LatentFactors.Proofs.Gradient.Cuts
import LatentFactors.Proofs.Gradient.Pointwise
import LatentFactors.Proofs.Hypothesis.Counts

/-!
# When a gradient has steps

A gradient that goes with its hypothesis has a step for every class wherever
families fit together, the rates are numbers, and the observed value passes
`Gradient.checkLabel`.

`Gradient.Ready` lists what the gradient and the value have to be like.

* `Gradient.Ready.exists_steps`: the steps at one index.
* `Gradient.Ready.exists_updateFamily`: the update of a whole family.
* `Gradient.Ready.exists_updateCuts`: the update of the thresholds.
-/

namespace LatentFactors

variable {α : Type} [Scalar α]

theorem Setting.factor_of_vectorFactor {s : Setting α} {x : α} (h : s.vectorFactor = .ok x) :
    s.factor = .ok x := by
  cases s with
  | text s => cases h
  | number n => exact h
  | flag b => exact h
  | absent => exact h
  | list elements => exact h
  | table entries => exact h

namespace Gradient

/-! ## Parts of a step -/

/-- A label that passed the check is the number of a class. -/
theorem exists_whole {g : Gradient α} {y : Numeral α} {classes : Int}
    (hrule : g.rule = .softmax ∨ g.rule = .ordinal) (hlabel : g.checkLabel y classes = .ok ()) :
    ∃ label : Nat, Outcome.whole y = .ok (label : Int) ∧ (label : Int) < classes := by
  have hcheck : (do
      let label ← Outcome.whole y
      if y.isExactly label && 0 ≤ label && label < classes then return ()
      else throw (.labelOutside y classes)) = (Except.ok () : Outcome α Unit) := by
    unfold checkLabel at hlabel
    rcases hrule with hrule | hrule
    · rw [hrule] at hlabel
      exact hlabel
    · rw [hrule] at hlabel
      exact hlabel
  obtain ⟨label, hwhole, hcheck⟩ := Outcome.bind_eq_ok.1 hcheck
  split at hcheck
  · next hinside =>
    rw [Bool.and_eq_true, Bool.and_eq_true, decide_eq_true_iff, decide_eq_true_iff] at hinside
    obtain ⟨c, rfl⟩ := Int.eq_ofNat_of_zero_le hinside.1.2
    exact ⟨c, hwhole, hinside.2⟩
  · cases hcheck

/-- The number of a class passes the check if it is written as an integer. -/
theorem checkLabel_integer {g : Gradient α} {classes : Int} {label : Nat}
    (hrule : g.rule = .softmax ∨ g.rule = .ordinal) (hlabel : (label : Int) < classes) :
    g.checkLabel (.integer label) classes = .ok () := by
  have hwhole : Outcome.whole (.integer label : Numeral α) = .ok (label : Int) := rfl
  have hinside : ((Numeral.integer label : Numeral α).isExactly label && 0 ≤ (label : Int) &&
      (label : Int) < classes : Bool) = true := by
    simpa [Numeral.isExactly] using hlabel
  unfold checkLabel
  rcases hrule with hrule | hrule
  · rw [hrule, hwhole]
    exact if_pos hinside
  · rw [hrule, hwhole]
    exact if_pos hinside

theorem labelIn_of_whole {y : Numeral α} {prediction : List α} {c : Nat}
    (hlabel : Outcome.whole y = .ok (c : Int)) (hc : c < prediction.length) :
    labelIn y prediction = .ok c := by
  have hinside : (0 ≤ (c : Int) && (c : Int) < prediction.length : Bool) = true := by
    simpa using hc
  rw [labelIn, hlabel, Outcome.bind_ok, if_pos hinside]
  rfl

/-- A label that passed the check is a class of a prediction for all
classes. -/
theorem exists_labelIn {g : Gradient α} {y : Numeral α} {classes : Int} {prediction : List α}
    (hrule : g.rule = .softmax ∨ g.rule = .ordinal) (hlabel : g.checkLabel y classes = .ok ())
    (hlength : (prediction.length : Int) = classes) :
    ∃ c, labelIn y prediction = .ok c ∧ c < prediction.length := by
  obtain ⟨label, hwhole, hlt⟩ := exists_whole hrule hlabel
  have hinside : label < prediction.length := by omega
  exact ⟨label, labelIn_of_whole hwhole hinside, hinside⟩

theorem exists_slopesAround {prediction : List α} {c : Nat} (h : c < prediction.length) :
    ∃ slopes, slopesAround prediction c = .ok slopes := by
  have hc : c < (Scalar.running prediction).length := by
    rw [Scalar.length_running]
    exact h
  have hbelow : c - 1 < (Scalar.running prediction).length := by omega
  rw [slopesAround, Outcome.nth_of_lt hc, Outcome.bind_ok]
  split
  · exact ⟨_, rfl⟩
  · rw [Outcome.nth_of_lt hbelow]
    exact ⟨_, rfl⟩

theorem exists_direction {i : Nat} {feature parameter : Vec α} {penalty : Setting α} (err : α)
    (hfeature : i < feature.size) (hparameter : i < parameter.size)
    (hpenalty : ∃ x, penalty.factor = .ok x) :
    ∃ d, direction i err feature parameter penalty = .ok d := by
  obtain ⟨x, hx⟩ := hpenalty
  rw [direction]
  split
  · exact ⟨err, rfl⟩
  · rw [Vec.get_natCast hfeature, Outcome.bind_ok, Vec.get_natCast hparameter, Outcome.bind_ok, hx]
    exact ⟨_, rfl⟩

/-! ## Steps at one index -/

section

variable {g : Gradient α} {i : Nat} {y : Numeral α} {parameters features : Family α}
  {prediction : List α} {penalty : Setting α}

theorem exists_defaultSteps (hlength : parameters.length = 1) (hfeatures : features.length = 1)
    (hprediction : prediction.length = 1) (hp : ∀ p ∈ parameters, i < p.size)
    (hf : ∀ f ∈ features, i < f.size) (hrate : ∃ x, g.rate.vectorFactor = .ok x)
    (hpenalty : ∃ x, penalty.factor = .ok x) (hy : ∃ x, Outcome.real y = .ok x) :
    ∃ s, g.defaultSteps i y parameters features prediction penalty = .ok s ∧ s.length = 1 := by
  obtain ⟨parameter, rfl⟩ := List.length_eq_one_iff.1 hlength
  obtain ⟨feature, rfl⟩ := List.length_eq_one_iff.1 hfeatures
  obtain ⟨p, rfl⟩ := List.length_eq_one_iff.1 hprediction
  obtain ⟨value, hvalue⟩ := hy
  obtain ⟨rate, hrate⟩ := hrate
  obtain ⟨d, hd⟩ := exists_direction (value - p) (hf feature (List.mem_singleton_self feature))
    (hp parameter (List.mem_singleton_self parameter)) hpenalty
  refine ⟨[rate * d], ?_, rfl⟩
  show (Outcome.real y >>= fun value =>
    direction i (value - p) feature parameter penalty >>= fun d =>
      g.rate.factor >>= fun rate => Except.ok [rate * d]) = _
  rw [hvalue, Outcome.bind_ok, hd, Outcome.bind_ok, Setting.factor_of_vectorFactor hrate]
  rfl

theorem exists_softmaxSteps (hlength : parameters.length ≠ 1)
    (hfeatures : features.length = parameters.length)
    (hprediction : prediction.length = parameters.length)
    (hlabel : ∃ c, labelIn y prediction = .ok c) (hp : ∀ p ∈ parameters, i < p.size)
    (hf : ∀ f ∈ features, i < f.size) (hrate : ∃ x, g.rate.vectorFactor = .ok x)
    (hpenalty : ∃ x, penalty.factor = .ok x) :
    ∃ s, g.softmaxSteps i y parameters features prediction penalty = .ok s ∧
      s.length = parameters.length := by
  obtain ⟨label, hlabel⟩ := hlabel
  obtain ⟨rate, hrate⟩ := hrate
  rw [softmaxSteps, if_neg hlength, hlabel, Outcome.bind_ok]
  refine Outcome.exists_bind (Outcome.exists_mapM_ok ?_) ?_
  · rintro ⟨⟨f, p⟩, c⟩ hmem
    obtain ⟨hfc, hpc⟩ := List.getElem?_zip_eq_some.1 (List.mem_zipIdx_iff_getElem?.1 hmem)
    obtain ⟨hc, -⟩ := List.getElem?_eq_some_iff.1 hpc
    have hlt : c < prediction.length := by omega
    obtain ⟨d, hd⟩ := exists_direction ((if c = label then 1 else 0) - prediction[c])
      (hf f (List.mem_of_getElem? hfc)) (hp p (List.mem_of_getElem? hpc)) hpenalty
    refine ⟨d, ?_⟩
    dsimp only
    rw [Outcome.nth_of_lt hlt, Outcome.bind_ok]
    exact hd
  · intro directions hdirections
    refine ⟨directions.map (rate * ·), ?_, ?_⟩
    · rw [hrate]
      rfl
    · rw [List.length_map, Outcome.length_of_mapM hdirections, List.length_zipIdx,
        List.length_zip, hfeatures, Nat.min_self]

theorem exists_ordinalSteps (hlength : parameters.length = 1) (hfeatures : features.length = 1)
    (hlabel : ∃ c, labelIn y prediction = .ok c ∧ c < prediction.length)
    (hp : ∀ p ∈ parameters, i < p.size) (hf : ∀ f ∈ features, i < f.size)
    (hrate : ∃ x, g.rate.vectorFactor = .ok x) (hpenalty : ∃ x, penalty.factor = .ok x) :
    ∃ s, g.ordinalSteps i y parameters features prediction penalty = .ok s ∧ s.length = 1 := by
  obtain ⟨parameter, rfl⟩ := List.length_eq_one_iff.1 hlength
  obtain ⟨feature, rfl⟩ := List.length_eq_one_iff.1 hfeatures
  obtain ⟨c, hlabel, hc⟩ := hlabel
  obtain ⟨⟨below, above⟩, hslopes⟩ := exists_slopesAround hc
  obtain ⟨rate, hrate⟩ := hrate
  obtain ⟨factor, hfactor⟩ := hpenalty
  have hget := Vec.get_natCast (hf feature (List.mem_singleton_self feature))
  have hget' := Vec.get_natCast (hp parameter (List.mem_singleton_self parameter))
  have hfirst (v : Vec α) : (Outcome.nth [v] 0 : Outcome α (Vec α)) = .ok v := rfl
  rw [ordinalSteps, hlabel, Outcome.bind_ok, hfirst, Outcome.bind_ok, hget, Outcome.bind_ok,
    hslopes, Outcome.bind_ok]
  dsimp only
  rw [Outcome.nth_of_lt hc, Outcome.bind_ok]
  split
  · rw [Setting.factor_of_vectorFactor hrate]
    exact ⟨_, rfl, rfl⟩
  · rw [hfirst, Outcome.bind_ok, hget', Outcome.bind_ok, hfactor, Outcome.bind_ok,
      Setting.factor_of_vectorFactor hrate]
    exact ⟨_, rfl, rfl⟩

end

/-! ## Steps of a gradient that goes with its hypothesis -/

/-- A gradient with the rule of its hypothesis and a rate to multiply by, for a
number of classes that the hypothesis admits, and an observed value that it
can learn. -/
structure Ready (g : Gradient α) (shape : Shape α) (y : Numeral α) : Prop where
  rule : g.rule = .ofHypothesis g.hypothesis
  admits : shape.Admits g.hypothesis
  rate : ∃ x, g.rate.vectorFactor = .ok x
  real : ∃ x, Outcome.real y = .ok x
  label : g.checkLabel y shape.classCount = .ok ()

namespace Ready

variable {g : Gradient α} {shape : Shape α} {y : Numeral α} {prediction : List α}

/-- The observed class is one of a prediction. -/
theorem exists_labelIn (h : g.Ready shape y)
    (hkind : g.hypothesis = .softmax ∨ g.hypothesis = .ordinal)
    (hprediction : prediction.length = shape.predictionCount g.hypothesis) :
    ∃ c, labelIn y prediction = .ok c ∧ c < prediction.length := by
  have hadmits := h.admits
  have hrule := h.rule
  rcases hkind with hkind | hkind
  · rw [hkind] at hadmits hrule hprediction
    obtain ⟨-, hcount⟩ := hadmits
    refine Gradient.exists_labelIn (Or.inl hrule) h.label ?_
    rw [hprediction]
    show (shape.classCount.toNat : Int) = shape.classCount
    omega
  · rw [hkind] at hadmits hrule hprediction
    obtain ⟨-, hcount⟩ := hadmits
    refine Gradient.exists_labelIn (Or.inr hrule) h.label ?_
    rw [hprediction]
    show (shape.classCount.toNat : Int) = shape.classCount
    omega

/-- Every class has a step at an index inside of all vectors. -/
theorem exists_steps (h : g.Ready shape y) {i : Nat} {parameters fs : Family α}
    {features : Features α} {penalty : Setting α}
    (hprediction : prediction.length = shape.predictionCount g.hypothesis)
    (hlength : parameters.length = shape.vectorCount)
    (hfeatures : features.forClasses parameters.length = .ok fs)
    (hcount : fs.length = parameters.length) (hp : ∀ p ∈ parameters, i < p.size)
    (hf : ∀ f ∈ fs, i < f.size) (hpenalty : ∃ x, penalty.factor = .ok x) :
    ∃ s, g.steps i y parameters features prediction penalty = .ok s ∧
      s.length = parameters.length := by
  have hrule := h.rule
  have hadmits := h.admits
  have hdefault (hrule : g.rule = .default) (hone : shape.vectorCount = 1)
      (hprediction : prediction.length = 1) :
      ∃ s, g.steps i y parameters features prediction penalty = .ok s ∧
        s.length = parameters.length := by
    rw [hlength, hone]
    rw [steps, hfeatures, Outcome.bind_ok, hrule]
    exact exists_defaultSteps (by omega) (by omega) hprediction hp hf h.rate hpenalty h.real
  cases hkind : g.hypothesis with
  | ols | logistic | poisson =>
    rw [hkind] at hrule hadmits hprediction
    obtain ⟨-, hclasses⟩ := hadmits
    exact hdefault hrule (Shape.vectorCount_eq_one (by omega)) hprediction
  | softmax =>
    obtain ⟨c, hlabel, -⟩ := h.exists_labelIn (Or.inl hkind) hprediction
    rw [hkind] at hrule hadmits hprediction
    obtain ⟨hordinal, hmany⟩ := hadmits
    have hclasses : parameters.length = shape.classCount.toNat :=
      hlength.trans (Shape.vectorCount_eq_toNat hordinal hmany)
    rw [steps, hfeatures, Outcome.bind_ok, hrule]
    exact exists_softmaxSteps (by omega) hcount (hprediction.trans hclasses.symm) ⟨c, hlabel⟩ hp
      hf h.rate hpenalty
  | ordinal =>
    have hlabel := h.exists_labelIn (Or.inr hkind) hprediction
    rw [hkind] at hrule hadmits
    have hone := Shape.vectorCount_eq_one_of_ordinal hadmits.1
    rw [hlength, hone]
    rw [steps, hfeatures, Outcome.bind_ok, hrule]
    exact exists_ordinalSteps (by omega) (by omega) hlabel hp hf h.rate hpenalty

/-- A family can be updated with features that it has products with. -/
theorem exists_updateFamily (h : g.Ready shape y) {parameters fs : Family α}
    {features : Features α} {penalties : Penalties α} {kept : Option Int}
    (hprediction : prediction.length = shape.predictionCount g.hypothesis)
    (hlength : parameters.length = shape.vectorCount)
    (hfeatures : features.forClasses parameters.length = .ok fs)
    (hcount : fs.length = parameters.length) (hvectors : ∀ f ∈ fs, f ∈ features.vectors)
    (hproducts : ∀ p ∈ parameters, ∀ f ∈ features.vectors, p.HasProduct f)
    (hpenalty : ∀ i, ∃ x, (penalties.forIndex i).factor = .ok x) :
    ∃ new, g.updateFamily parameters features y prediction penalties kept = .ok new := by
  have hpos := shape.vectorCount_pos
  have hsizes : ∀ p ∈ parameters, ∀ f ∈ features.vectors, p.size = f.size :=
    fun p hp f hf => (hproducts p hp f hf).size
  obtain ⟨p, hp⟩ : ∃ p, p ∈ parameters := List.exists_mem_of_length_pos (by omega)
  obtain ⟨f, hf⟩ : ∃ f, f ∈ fs := List.exists_mem_of_length_pos (by omega)
  refine Gradient.exists_updateFamily hsizes (List.ne_nil_of_mem (hvectors f hf))
    (fun w hw => (hproducts p hp w hw).right) fun i hi => ?_
  obtain ⟨⟨w, hw, hlisted⟩, -⟩ := Features.mem_walked.1 hi
  have hinside : i < w.size := (Vec.nonzero_of_mem_support hlisted).1
  have hparameters : ∀ q ∈ parameters, i < q.size := by
    intro q hq
    rw [hsizes q hq w hw]
    exact hinside
  have hinsides : ∀ v ∈ fs, i < v.size := by
    intro v hv
    rw [← hsizes p hp v (hvectors v hv)]
    exact hparameters p hp
  obtain ⟨s, hs, hcountSteps⟩ :=
    h.exists_steps hprediction hlength hfeatures hcount hparameters hinsides (hpenalty i)
  exact ⟨s, hs, hcountSteps.ge⟩

/-- The thresholds can be updated. -/
theorem exists_updateCuts (h : g.Ready shape y) {cuts scores : List α} {penalty : Setting α}
    (clamped : Bool) (hcuts : cuts.length = shape.cutCount)
    (hscores : scores.length = shape.scoreCount g.hypothesis)
    (hpenalty : ∃ x, penalty.vectorFactor = .ok x) :
    ∃ new, g.updateCuts y cuts scores penalty clamped = .ok new := by
  obtain ⟨steps, hsteps⟩ : ∃ steps, g.cutSteps y cuts scores penalty = .ok steps := by
    have hrule := h.rule
    have hadmits := h.admits
    obtain ⟨prediction, hpredict, hprediction⟩ := Hypothesis.exists_predict h.admits hscores
    unfold cutSteps
    cases hkind : g.hypothesis with
    | ols | logistic | poisson | softmax =>
      rw [hkind] at hrule
      rw [hrule]
      exact ⟨_, rfl⟩
    | ordinal =>
      obtain ⟨c, hlabel, hc⟩ := h.exists_labelIn (Or.inr hkind) hprediction
      obtain ⟨⟨below, above⟩, hslopes⟩ := exists_slopesAround hc
      obtain ⟨factor, hfactor⟩ := hpenalty
      obtain ⟨rate, hrate⟩ := h.rate
      rw [hkind] at hrule hscores hprediction hpredict hadmits
      obtain ⟨-, hcount⟩ := hadmits
      have hthresholds : scores.length = shape.cutCount := hscores
      have hclasses : prediction.length = shape.classCount.toNat := hprediction
      -- The class is at most the number of thresholds, so one that is not the
      -- last has a threshold above it.
      have hinside : (decide (c ≠ scores.length) && decide (cuts.length ≤ c)) = false := by
        rw [Shape.cutCount] at hthresholds hcuts
        rw [Bool.and_eq_false_iff, decide_eq_false_iff_not, decide_eq_false_iff_not]
        omega
      rw [hrule]
      dsimp only
      rw [hpredict, Outcome.bind_ok, hlabel, Outcome.bind_ok, Outcome.nth_of_lt hc,
        Outcome.bind_ok, hslopes, Outcome.bind_ok]
      dsimp only
      rw [hinside, if_neg Bool.false_ne_true, hfactor, Outcome.bind_ok, hrate]
      exact ⟨_, rfl⟩
  rw [updateCuts, hsteps]
  exact ⟨_, rfl⟩

end Ready

end Gradient

end LatentFactors
