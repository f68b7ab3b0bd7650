import Mathlib.Tactic.Ring
import LatentFactors.Proofs.Arithmetic
import LatentFactors.Proofs.Gradient.Pointwise
import LatentFactors.Proofs.Gradient.Steps
import LatentFactors.Proofs.Numeral

/-!
# An update in closed form

In exact arithmetic one update of a family is a formula in its old entries.
The formula speaks of a family through `Family.entry`, the entry of a class at
an index, and of the observed value through `Hypothesis.residual`, which says
how far a class is from what was observed.

* `Gradient.getElem?_steps`: away from the intercept the step of a class is its
  feature times the residual, less the penalty times the parameter, all scaled
  by the learning rate.
* `Gradient.getElem?_steps_zero`: at the intercept the step of single values
  and of unordered classes is the residual alone.
* `Gradient.entry_updateFamily`: where a feature is nonzero the step is added,
  and everywhere else the entry stays.

The slopes of ordered classes are taken at sums of the first probabilities.
The sum of no probabilities is zero, and so is its slope: nothing is below the
first class.
-/

namespace LatentFactors

section Views

variable {α : Type} [Scalar α]

/-- The class that a number names. -/
def Numeral.label (y : Numeral α) : Nat :=
  match y.truncate with
  | .ok n => n.toNat
  | .error _ => 0

theorem Numeral.label_of_whole {y : Numeral α} {n : Int} (h : Outcome.whole y = .ok n) :
    y.label = n.toNat := by
  rw [label]
  cases htruncate : y.truncate with
  | error e =>
    rw [Outcome.whole, htruncate] at h
    cases h
  | ok m =>
    rw [Outcome.whole, htruncate] at h
    injection h with h
    exact congrArg Int.toNat h

/-- The entry of a class at an index, zero where there is none. -/
def Family.entry (family : Family α) (c i : Nat) : α :=
  match family[c]? with
  | some v => v.entry i
  | none => 0

/-- The entry at an index of the feature vector of a class. -/
def Features.entry (features : Features α) (c i : Nat) : α :=
  match features with
  | .shared f => f.entry i
  | .perClass fs => Family.entry fs c i

theorem Family.entry_of_getElem? {family : Family α} {c : Nat} {v : Vec α}
    (h : family[c]? = some v) (i : Nat) : Family.entry family c i = v.entry i := by
  rw [Family.entry, h]

theorem Family.entry_of_length_le {family : Family α} {c : Nat} (h : family.length ≤ c) (i : Nat) :
    Family.entry family c i = 0 := by
  rw [Family.entry, List.getElem?_eq_none h]

end Views

variable {K : Type} [ExactScalar K]

/-! ## Running sums -/

namespace Scalar

/-- The running sums of a list are the sums of its first elements. -/
theorem getElem?_running {xs : List K} {c : Nat} (h : c < xs.length) :
    (running xs)[c]? = some (xs.take (c + 1)).sum := by
  have hfrom : ∀ (ys : List K) (acc : K) (c : Nat), c < ys.length →
      (runningFrom acc ys)[c]? = some (acc + (ys.take (c + 1)).sum) := by
    intro ys
    induction ys with
    | nil => intro acc c hc; cases hc
    | cons y ys ih =>
      intro acc c hc
      cases c with
      | zero => simp [runningFrom]
      | succ c =>
        rw [runningFrom, List.getElem?_cons_succ, ih (acc + y) c (Nat.lt_of_succ_lt_succ hc),
          List.take_succ_cons, List.sum_cons, add_assoc]
  cases xs with
  | nil => cases h
  | cons x xs =>
    cases c with
    | zero => simp [running]
    | succ c =>
      rw [running, List.getElem?_cons_succ, hfrom xs x c (Nat.lt_of_succ_lt_succ h),
        List.take_succ_cons, List.sum_cons]

end Scalar

/-- Some class has a nonzero entry at an index exactly when some vector has. -/
theorem Family.exists_entry_ne_zero {family : Family K} {i : Nat} :
    (∃ c, Family.entry family c i ≠ 0) ↔ ∃ v ∈ family, v.entry i ≠ 0 := by
  constructor
  · rintro ⟨c, hc⟩
    rcases hv : family[c]? with - | v
    · rw [Family.entry, hv] at hc
      exact absurd rfl hc
    · rw [Family.entry_of_getElem? hv] at hc
      exact ⟨v, List.mem_of_getElem? hv, hc⟩
  · rintro ⟨v, hv, hi⟩
    obtain ⟨c, hc⟩ := List.mem_iff_getElem?.1 hv
    refine ⟨c, ?_⟩
    rwa [Family.entry_of_getElem? hc]

/-- The walk visits an index where some feature is nonzero, unless it is kept. -/
theorem Features.mem_walked_iff {features : Features K} {kept : Option Int} {i : Nat} :
    i ∈ features.walked kept ↔
      (∃ f ∈ features.vectors, f.entry i ≠ 0) ∧ kept ≠ some (i : Int) := by
  rw [mem_walked]
  simp only [Vec.mem_support_iff]

/-! ## Residuals -/

/-- How far a class is from what was observed.  A single value misses by a
difference, and an unordered class by the difference from its indicator.  For
ordered classes it is the slope below the observed class less the slope above
it, over the probability of that class. -/
def Hypothesis.residual (h : Hypothesis) (y : Numeral K) (prediction : List K) (c : Nat) : K :=
  match h with
  | .ols | .logistic | .poisson => y.value - prediction.getD 0 0
  | .softmax => (if c = y.label then 1 else 0) - prediction.getD c 0
  | .ordinal =>
    (Gradient.slope (prediction.take y.label).sum -
      Gradient.slope (prediction.take (y.label + 1)).sum) / prediction.getD y.label 0

omit [ExactScalar K] in
theorem Features.length_of_forClasses {features : Features K} {fs : Family K} {n : Nat}
    (h : features.forClasses n = .ok fs) : fs.length = n := by
  cases features with
  | shared feature =>
    injection h with h
    rw [← h, List.length_replicate]
  | perClass vectors =>
    rw [forClasses] at h
    split at h
    · cases h
    · next hcount =>
      injection h with h
      rw [← h]
      exact not_not.1 hcount

/-- Every class finds its own feature vector among those for the classes. -/
theorem Features.entry_of_forClasses {features : Features K} {fs : Family K} {n c : Nat}
    {f : Vec K} (h : features.forClasses n = .ok fs) (hf : fs[c]? = some f) (i : Nat) :
    features.entry c i = f.entry i := by
  cases features with
  | shared feature =>
    injection h with h
    rw [← h] at hf
    rw [(List.mem_replicate.1 (List.mem_of_getElem? hf)).2]
    rfl
  | perClass vectors =>
    rw [forClasses] at h
    split at h
    · cases h
    · injection h with h
      rw [← h] at hf
      exact Family.entry_of_getElem? hf i

namespace Gradient

theorem labelIn_eq_ok {y : Numeral K} {prediction : List K} {c : Nat}
    (h : labelIn y prediction = .ok c) : c = y.label ∧ c < prediction.length := by
  obtain ⟨label, hlabel, h⟩ := Outcome.bind_eq_ok.1 h
  split at h
  · next hinside =>
    injection h with h
    rw [Bool.and_eq_true, decide_eq_true_iff, decide_eq_true_iff] at hinside
    have hname := Numeral.label_of_whole hlabel
    constructor
    · rw [hname, h]
    · omega
  · cases h

/-- The slopes around a class are those at the sums of the probabilities up to
its ends. -/
theorem slopesAround_eq_ok {prediction : List K} {c : Nat} {below above : K}
    (hc : c < prediction.length) (h : slopesAround prediction c = .ok (below, above)) :
    below = slope (prediction.take c).sum ∧ above = slope (prediction.take (c + 1)).sum := by
  obtain ⟨upper, hupper, h⟩ := Outcome.bind_eq_ok.1 h
  rw [Outcome.nth_eq_ok_iff, Scalar.getElem?_running hc, Option.some.injEq] at hupper
  rw [hupper]
  split at h
  · next hzero =>
    injection h with h
    obtain ⟨rfl, rfl⟩ := Prod.mk.inj h
    refine ⟨?_, rfl⟩
    rw [hzero, List.take_zero, List.sum_nil, slope, zero_mul]
  · next hpos =>
    obtain ⟨lower, hlower, h⟩ := Outcome.bind_eq_ok.1 h
    injection h with h
    obtain ⟨rfl, rfl⟩ := Prod.mk.inj h
    have hprev : c - 1 + 1 = c := Nat.succ_pred_eq_of_pos (Nat.pos_of_ne_zero hpos)
    rw [Outcome.nth_eq_ok_iff, Scalar.getElem?_running (by omega), Option.some.injEq,
      hprev] at hlower
    rw [hlower]
    exact ⟨rfl, rfl⟩

theorem slopesAround_of_lt {prediction : List K} {c : Nat} (hc : c < prediction.length) :
    slopesAround prediction c =
      .ok (slope (prediction.take c).sum, slope (prediction.take (c + 1)).sum) := by
  obtain ⟨⟨below, above⟩, hslopes⟩ := exists_slopesAround hc
  obtain ⟨rfl, rfl⟩ := slopesAround_eq_ok hc hslopes
  exact hslopes

/-! ## Steps -/

theorem direction_eq_ok {i : Nat} {err d lam : K} {feature parameter : Vec K}
    {penalty : Setting K} (h : direction i err feature parameter penalty = .ok d) (hi : i ≠ 0)
    (hlam : penalty.factor = .ok lam) :
    d = feature.entry i * err - lam * parameter.entry i := by
  rw [direction, if_neg (Int.natCast_ne_zero.2 hi)] at h
  obtain ⟨x, hx, h⟩ := Outcome.bind_eq_ok.1 h
  obtain ⟨p, hp, h⟩ := Outcome.bind_eq_ok.1 h
  rw [hlam, Outcome.bind_ok] at h
  injection h with h
  rw [← h, (Vec.get_eq_ok hx).2, (Vec.get_eq_ok hp).2]

theorem direction_zero {err d : K} {feature parameter : Vec K} {penalty : Setting K}
    (h : direction (0 : Nat) err feature parameter penalty = .ok d) : d = err := by
  rw [direction, Nat.cast_zero, if_pos rfl] at h
  injection h with h
  exact h.symm

section Steps

variable {g : Gradient K} {i : Nat} {y : Numeral K} {parameters : Family K}
  {features : Features K} {fs : Family K} {prediction s : List K} {penalty : Setting K}
  {c : Nat} {x lr : K}

omit [ExactScalar K] in
private theorem singleton_aux {d : K} (h : ([d] : List K)[c]? = some x) : c = 0 ∧ x = d := by
  obtain ⟨hc, hx⟩ := List.getElem?_eq_some_iff.1 h
  rw [List.length_singleton, Nat.lt_one_iff] at hc
  subst hc
  exact ⟨rfl, hx.symm⟩

private theorem defaultSteps_aux
    (h : g.defaultSteps i y parameters fs prediction penalty = .ok s) (hx : s[c]? = some x)
    (hlr : g.rate.factor = .ok lr) :
    ∃ f p d, fs[c]? = some f ∧ parameters[c]? = some p ∧
      direction i (y.value - prediction.getD 0 0) f p penalty = .ok d ∧ x = lr * d := by
  unfold defaultSteps at h
  split at h
  · next p =>
    obtain ⟨first, hfirst, h⟩ := Outcome.bind_eq_ok.1 h
    obtain ⟨value, hvalue, h⟩ := Outcome.bind_eq_ok.1 h
    obtain ⟨f, hf, h⟩ := Outcome.bind_eq_ok.1 h
    obtain ⟨d, hd, h⟩ := Outcome.bind_eq_ok.1 h
    rw [hlr, Outcome.bind_ok] at h
    injection h with h
    subst h
    obtain ⟨rfl, rfl⟩ := singleton_aux hx
    rw [Outcome.real_eq] at hvalue
    injection hvalue with hvalue
    rw [Outcome.nth_eq_ok_iff] at hfirst hf
    refine ⟨f, p, d, hf, rfl, ?_, rfl⟩
    rw [List.getD_eq_getElem?_getD, hfirst, hvalue]
    exact hd
  · cases h

private theorem softmaxSteps_aux
    (h : g.softmaxSteps i y parameters fs prediction penalty = .ok s) (hx : s[c]? = some x)
    (hlr : g.rate.factor = .ok lr) :
    ∃ f p d, fs[c]? = some f ∧ parameters[c]? = some p ∧
      direction i ((if c = y.label then 1 else 0) - prediction.getD c 0) f p penalty = .ok d ∧
        x = lr * d := by
  unfold softmaxSteps at h
  split at h
  · cases h
  · obtain ⟨label, hlabel, h⟩ := Outcome.bind_eq_ok.1 h
    obtain ⟨directions, hdirections, h⟩ := Outcome.bind_eq_ok.1 h
    obtain ⟨rate, hrate, h⟩ := Outcome.bind_eq_ok.1 h
    injection h with h
    subst h
    rw [List.getElem?_map, Option.map_eq_some_iff] at hx
    obtain ⟨d, hd, hx⟩ := hx
    obtain ⟨⟨⟨f, p⟩, c'⟩, hplace, hdirection⟩ := Outcome.exists_of_getElem?_mapM hdirections hd
    rw [List.getElem?_zipIdx, Option.map_eq_some_iff] at hplace
    obtain ⟨pair, hpair, hplace⟩ := hplace
    rw [Nat.zero_add] at hplace
    obtain ⟨rfl, rfl⟩ := Prod.mk.inj hplace
    obtain ⟨hf, hp⟩ := List.getElem?_zip_eq_some.1 hpair
    obtain ⟨probability, hprobability, hdirection⟩ := Outcome.bind_eq_ok.1 hdirection
    rw [Outcome.nth_eq_ok_iff] at hprobability
    have hlr' := Setting.factor_of_vectorFactor hrate
    rw [hlr, Except.ok.injEq] at hlr'
    refine ⟨f, p, d, hf, hp, ?_, by rw [← hx, hlr']⟩
    rw [List.getD_eq_getElem?_getD, hprobability, ← (labelIn_eq_ok hlabel).1]
    exact hdirection

/-- The gain of ordered classes is the feature times the residual.  Below the first
class both readings of the slope are zero. -/
theorem gain_eq {label : Nat} {below above probability : K}
    (hbelow : below = slope (prediction.take label).sum)
    (habove : above = slope (prediction.take (label + 1)).sum)
    (hprobability : prediction[label]? = some probability) (hname : label = y.label)
    (entry : K) :
    (above * -entry - if label = 0 then 0 else below * -entry) / probability =
      entry * Hypothesis.residual .ordinal y prediction c := by
  have hlower : (if label = 0 then 0 else below * -entry) = below * -entry := by
    split
    · next hzero => rw [hbelow, hzero, List.take_zero, List.sum_nil, slope, zero_mul, zero_mul]
    · rfl
  rw [hlower, Hypothesis.residual, ← hname, ← hbelow, ← habove, List.getD_eq_getElem?_getD,
    hprobability, Option.getD_some, mul_div_assoc']
  ring

private theorem ordinalSteps_aux
    (h : g.ordinalSteps i y parameters fs prediction penalty = .ok s) (hx : s[c]? = some x)
    (hlr : g.rate.factor = .ok lr) (hi : i ≠ 0) {lam : K} (hlam : penalty.factor = .ok lam) :
    ∃ f p, fs[c]? = some f ∧ parameters[c]? = some p ∧
      x = lr * (f.entry i * Hypothesis.residual .ordinal y prediction c - lam * p.entry i) := by
  obtain ⟨label, hlabel, h⟩ := Outcome.bind_eq_ok.1 h
  obtain ⟨hname, hinside⟩ := labelIn_eq_ok hlabel
  obtain ⟨f, hf, h⟩ := Outcome.bind_eq_ok.1 h
  obtain ⟨entry, hentry, h⟩ := Outcome.bind_eq_ok.1 h
  obtain ⟨⟨below, above⟩, hslopes, h⟩ := Outcome.bind_eq_ok.1 h
  obtain ⟨hbelow, habove⟩ := slopesAround_eq_ok hinside hslopes
  obtain ⟨probability, hprobability, h⟩ := Outcome.bind_eq_ok.1 h
  rw [Outcome.nth_eq_ok_iff] at hf hprobability
  obtain ⟨-, rfl⟩ := Vec.get_eq_ok hentry
  dsimp only at h
  rw [gain_eq (c := c) hbelow habove hprobability hname, if_neg (Int.natCast_ne_zero.2 hi)] at h
  obtain ⟨p, hp, h⟩ := Outcome.bind_eq_ok.1 h
  obtain ⟨parameter, hparameter, h⟩ := Outcome.bind_eq_ok.1 h
  rw [hlam, Outcome.bind_ok, hlr, Outcome.bind_ok] at h
  injection h with h
  subst h
  obtain ⟨rfl, rfl⟩ := singleton_aux hx
  rw [Outcome.nth_eq_ok_iff] at hp
  obtain ⟨-, rfl⟩ := Vec.get_eq_ok hparameter
  exact ⟨f, p, hf, hp, rfl⟩

private theorem unorderedSteps_aux (hrule : g.rule = .ofHypothesis g.hypothesis)
    (hkind : g.hypothesis ≠ .ordinal)
    (h : g.steps i y parameters features prediction penalty = .ok s) (hx : s[c]? = some x)
    (hlr : g.rate.factor = .ok lr) :
    ∃ f p d, features.entry c i = f.entry i ∧ parameters[c]? = some p ∧
      direction i (g.hypothesis.residual y prediction c) f p penalty = .ok d ∧ x = lr * d := by
  obtain ⟨fs, hfs, h⟩ := Outcome.bind_eq_ok.1 h
  rw [hrule] at h
  cases hh : g.hypothesis with
  | ols | logistic | poisson =>
    rw [hh] at h
    obtain ⟨f, p, d, hf, hp, hd, hxd⟩ := defaultSteps_aux h hx hlr
    exact ⟨f, p, d, Features.entry_of_forClasses hfs hf i, hp, hd, hxd⟩
  | softmax =>
    rw [hh] at h
    obtain ⟨f, p, d, hf, hp, hd, hxd⟩ := softmaxSteps_aux h hx hlr
    exact ⟨f, p, d, Features.entry_of_forClasses hfs hf i, hp, hd, hxd⟩
  | ordinal => exact absurd hh hkind

/-- Away from the intercept a step is the feature times the residual, less the
penalty times the parameter, scaled by the learning rate. -/
theorem getElem?_steps (hrule : g.rule = .ofHypothesis g.hypothesis)
    (h : g.steps i y parameters features prediction penalty = .ok s) (hx : s[c]? = some x)
    (hlr : g.rate.factor = .ok lr) (hi : i ≠ 0) {lam : K} (hlam : penalty.factor = .ok lam) :
    x = lr * (features.entry c i * g.hypothesis.residual y prediction c -
      lam * Family.entry parameters c i) := by
  by_cases hkind : g.hypothesis = .ordinal
  · obtain ⟨fs, hfs, h⟩ := Outcome.bind_eq_ok.1 h
    rw [hrule, hkind] at h
    obtain ⟨f, p, hf, hp, hstep⟩ := ordinalSteps_aux h hx hlr hi hlam
    rw [hstep, Features.entry_of_forClasses hfs hf, Family.entry_of_getElem? hp, hkind]
  · obtain ⟨f, p, d, hf, hp, hd, hxd⟩ := unorderedSteps_aux hrule hkind h hx hlr
    rw [hxd, direction_eq_ok hd hi hlam, hf, Family.entry_of_getElem? hp]

/-- At the intercept a step of single values and of unordered classes is the
residual alone, scaled by the learning rate. -/
theorem getElem?_steps_zero (hrule : g.rule = .ofHypothesis g.hypothesis)
    (hkind : g.hypothesis ≠ .ordinal)
    (h : g.steps (0 : Nat) y parameters features prediction penalty = .ok s)
    (hx : s[c]? = some x) (hlr : g.rate.factor = .ok lr) :
    x = lr * g.hypothesis.residual y prediction c := by
  obtain ⟨f, p, d, -, -, hd, hxd⟩ := unorderedSteps_aux hrule hkind h hx hlr
  rw [hxd, direction_zero hd]

/-- Unordered classes have steps only if there is a rate to scale them by, and
away from the intercept only if there is a penalty. -/
theorem exists_factors_of_steps (hrule : g.rule = .softmax)
    (h : g.steps i y parameters features prediction penalty = .ok s) (hx : s[c]? = some x) :
    y.label < prediction.length ∧ ∃ lr, g.rate.factor = .ok lr ∧
      (i ≠ 0 → ∃ lam, penalty.factor = .ok lam) := by
  obtain ⟨fs, -, hsteps⟩ := Outcome.bind_eq_ok.1 h
  rw [hrule] at hsteps
  replace h : g.softmaxSteps i y parameters fs prediction penalty = .ok s := hsteps
  unfold softmaxSteps at h
  split at h
  · cases h
  · obtain ⟨label, hlabel, h⟩ := Outcome.bind_eq_ok.1 h
    obtain ⟨directions, -, h⟩ := Outcome.bind_eq_ok.1 h
    obtain ⟨rate, hrate, -⟩ := Outcome.bind_eq_ok.1 h
    obtain ⟨hname, hinside⟩ := labelIn_eq_ok hlabel
    have hfactor := Setting.factor_of_vectorFactor hrate
    refine ⟨hname ▸ hinside, rate, hfactor, fun hi => ?_⟩
    obtain ⟨f, p, d, -, -, hd, -⟩ := softmaxSteps_aux hsteps hx hfactor
    rw [direction, if_neg (Int.natCast_ne_zero.2 hi)] at hd
    obtain ⟨_, -, hd⟩ := Outcome.bind_eq_ok.1 hd
    obtain ⟨_, -, hd⟩ := Outcome.bind_eq_ok.1 hd
    obtain ⟨lam, hlam, -⟩ := Outcome.bind_eq_ok.1 hd
    exact ⟨lam, hlam⟩

section SingleVector

variable {parameter feature : Vec K} {others : Family K} {p : K} {ps : List K}

/-- One vector that ordered classes share.  What its step away from the intercept
reads, it reads in this order, and any of it may be missing. -/
theorem steps_ordinal (hrule : g.rule = .ordinal) (hlabel : labelIn y prediction = .ok c)
    (hfeatures : features.forClasses (parameter :: parameters).length = .ok (feature :: others))
    (hi : i ≠ 0) :
    g.steps i y (parameter :: parameters) features prediction penalty = (do
      let entry ← feature.get i
      let value ← parameter.get i
      let lam ← penalty.factor
      let lr ← g.rate.factor
      return [lr * (entry * Hypothesis.residual .ordinal y prediction 0 - lam * value)]) := by
  obtain ⟨hname, hinside⟩ := labelIn_eq_ok hlabel
  have hfirst (v : Vec K) (vs : Family K) :
      (Outcome.nth (v :: vs) 0 : Outcome K (Vec K)) = .ok v := rfl
  rw [steps, hfeatures, Outcome.bind_ok, hrule]
  dsimp only
  rw [ordinalSteps, hlabel, Outcome.bind_ok, hfirst, Outcome.bind_ok]
  refine bind_congr fun entry => ?_
  rw [slopesAround_of_lt hinside, Outcome.bind_ok]
  dsimp only
  rw [Outcome.nth_of_lt hinside, Outcome.bind_ok, if_neg (Int.natCast_ne_zero.2 hi), hfirst,
    Outcome.bind_ok, gain_eq (c := 0) rfl rfl (List.getElem?_eq_getElem hinside) hname]

/-- A vector on its own has a step that reads the same, in the same order. -/
theorem steps_default (hrule : g.rule = .default)
    (hfeatures : features.forClasses 1 = .ok (feature :: others)) (hi : i ≠ 0) :
    g.steps i y [parameter] features (p :: ps) penalty = (do
      let entry ← feature.get i
      let value ← parameter.get i
      let lam ← penalty.factor
      let lr ← g.rate.factor
      return [lr * (entry * (y.value - p) - lam * value)]) := by
  have hfirst {β : Type} (v : β) (vs : List β) : (Outcome.nth (v :: vs) 0 : Outcome K β) = .ok v :=
    rfl
  have hone : [parameter].length = 1 := rfl
  rw [steps, hone, hfeatures, Outcome.bind_ok, hrule]
  dsimp only
  rw [defaultSteps, hfirst, Outcome.bind_ok, Outcome.real_eq, Outcome.bind_ok, hfirst,
    Outcome.bind_ok, direction, if_neg (Int.natCast_ne_zero.2 hi)]
  simp only [bind_assoc, pure_bind]

end SingleVector

end Steps

/-! ## Updates -/

section Update

variable {g : Gradient K} {parameters new : Family K} {features : Features K} {y : Numeral K}
  {prediction : List K} {penalties : Penalties K} {kept : Option Int} {lr : K}

/-- Where no feature is nonzero, and at the index that is kept, the entries
stay. -/
theorem entry_updateFamily_stays
    (h : g.updateFamily parameters features y prediction penalties kept = .ok new) (c : Nat)
    {i : Nat} (hi : i ∉ features.walked kept) :
    Family.entry new c i = Family.entry parameters c i := by
  have halign := updateFamily_aligned h
  rcases hv : parameters[c]? with - | v
  · have hc : parameters.length ≤ c := List.getElem?_eq_none_iff.1 hv
    rw [Family.entry_of_length_le hc, Family.entry_of_length_le (halign.length.trans_le hc)]
  · obtain ⟨w, hw, -, -⟩ := halign.exists_new hv
    rw [Family.entry_of_getElem? hv, Family.entry_of_getElem? hw,
      entry_updateFamily_of_not_mem h hv hw hi]

/-- Everywhere else the step of the class is added. -/
theorem exists_step_of_updateFamily
    (h : g.updateFamily parameters features y prediction penalties kept = .ok new) {c i : Nat}
    (hc : c < parameters.length) (hi : i ∈ features.walked kept) :
    ∃ s x, g.steps i y parameters features prediction (penalties.forIndex i) = .ok s ∧
      s[c]? = some x ∧ Family.entry new c i = Family.entry parameters c i + x := by
  have hv : parameters[c]? = some parameters[c] := List.getElem?_eq_getElem hc
  obtain ⟨w, hw, -, -⟩ := (updateFamily_aligned h).exists_new hv
  obtain ⟨s, x, hs, hx, hentry⟩ := entry_updateFamily_of_mem h hv hw hi
  refine ⟨s, x, hs, hx, ?_⟩
  rw [Family.entry_of_getElem? hv, Family.entry_of_getElem? hw, hentry, Vec.kept_eq]

/-- Away from the intercept, the new entry where some feature is nonzero is the
old one with its regularized gradient. -/
theorem entry_updateFamily (hrule : g.rule = .ofHypothesis g.hypothesis)
    (h : g.updateFamily parameters features y prediction penalties kept = .ok new)
    (hlr : g.rate.factor = .ok lr) {c i : Nat} (hc : c < parameters.length)
    (hi : i ∈ features.walked kept) (hne : i ≠ 0) {lam : K}
    (hlam : (penalties.forIndex i).factor = .ok lam) :
    Family.entry new c i = Family.entry parameters c i +
      lr * (features.entry c i * g.hypothesis.residual y prediction c -
        lam * Family.entry parameters c i) := by
  obtain ⟨s, x, hs, hx, hentry⟩ := exists_step_of_updateFamily h hc hi
  rw [hentry, getElem?_steps hrule hs hx hlr hne hlam]

/-- At the intercept the new entry is the old one with the residual, whatever
the feature is. -/
theorem entry_updateFamily_zero (hrule : g.rule = .ofHypothesis g.hypothesis)
    (hkind : g.hypothesis ≠ .ordinal)
    (h : g.updateFamily parameters features y prediction penalties kept = .ok new)
    (hlr : g.rate.factor = .ok lr) {c : Nat} (hc : c < parameters.length)
    (hi : 0 ∈ features.walked kept) :
    Family.entry new c 0 = Family.entry parameters c 0 +
      lr * g.hypothesis.residual y prediction c := by
  obtain ⟨s, x, hs, hx, hentry⟩ := exists_step_of_updateFamily h hc hi
  rw [hentry, getElem?_steps_zero hrule hkind hs hx hlr]

end Update

end Gradient

end LatentFactors
