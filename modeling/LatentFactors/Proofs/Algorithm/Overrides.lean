import LatentFactors.Proofs.Algorithm
import LatentFactors.Proofs.Arithmetic.Rational
import LatentFactors.Proofs.Config

/-!
# Parameters override what they name

An algorithm with parameters fixes its hypothesis, and whether classes are ordered if it
is for ordered ones.  Every other setting is the parameter with the name of its field, or
what the algorithm assumes if there is none (`Hypothesis.setting_eq_of_config`).  Other
names change nothing.

What is assumed is the default of the algorithm (`Hypothesis.assumed_eq_default`), but for
one field: the learning rate that is assumed is the same for all algorithms, while the
default for counts is a smaller one.

A recommender carries the settings that it is built with (`Recommender.Carries`).
-/

namespace LatentFactors

variable {α : Type}

namespace Params

theorem find?_insert (params : Params α) (named field : Field) (s : Setting α) :
    (params.insert named.name s).find? field.name =
      if named = field then some s else params.find? field.name := by
  have hname : (named.name == field.name) = decide (named = field) :=
    Bool.eq_iff_iff.2 (beq_iff_eq.trans (Field.name_injective.eq_iff.trans decide_eq_true_iff.symm))
  rw [Table.find?_insert, hname]
  simp only [decide_eq_true_eq]

/-- A parameter that is given only if it is not named. -/
theorem find?_insert_unless (params : Params α) (named field : Field) (s : Setting α) :
    (if params.contains named.name then params
      else params.insert named.name s).find? field.name =
      if named = field then some ((params.find? named.name).getD s)
      else params.find? field.name := by
  rw [Table.contains]
  cases hfind : params.find? named.name with
  | none =>
    rw [Option.isSome_none, if_neg Bool.false_ne_true, find?_insert]
    rfl
  | some given =>
    rw [Option.isSome_some, if_pos rfl]
    split
    · next hsame => rw [← hsame, hfind, Option.getD_some]
    · rfl

theorem contains_insert_reserved (params : Params α) (field : Field) (s : Setting α) :
    (params.insert field.name s).contains reservedName = params.contains reservedName := by
  have hname : (field.name == reservedName) = false := by
    cases field <;> rfl
  rw [Table.contains, Table.find?_insert, hname, Table.contains]
  rfl

end Params

namespace Hypothesis

/-- The fields that an algorithm fixes, whatever is named. -/
def Fixes (h : Hypothesis) (field : Field) : Prop :=
  field = .hypothesis ∨ h = .ordinal ∧ field = .ordinal

instance (h : Hypothesis) (field : Field) : Decidable (h.Fixes field) :=
  inferInstanceAs (Decidable (_ ∨ _))

variable [Scalar α]

/-- What an algorithm with parameters takes for a field that is not named: its default, and
for the learning rate the one of a configuration. -/
def assumed (h : Hypothesis) (field : Field) : Setting α :=
  if field = .learningRate then LearnerConfig.default.setting .learningRate
  else h.defaultConfig.setting field

theorem assumed_eq_default {h : Hypothesis} {field : Field}
    (hrate : ¬(h = .poisson ∧ field = .learningRate)) :
    (h.assumed field : Setting α) = h.defaultConfig.setting field := by
  rw [assumed]
  split
  · next hfield =>
    subst hfield
    cases h with
    | ols | logistic | softmax | ordinal => rfl
    | poisson => exact absurd ⟨rfl, rfl⟩ hrate
  · rfl

/-- Apart from the fields that it completes, an algorithm assumes what a configuration
does. -/
theorem assumed_of_not_mem {h : Hypothesis} {field : Field} (hfield : field ∉ completed) :
    (h.assumed field : Setting α) = LearnerConfig.default.setting field := by
  rw [assumed]
  split
  · next hrate => rw [hrate]
  · next hrate =>
    have hhypothesis : field ≠ .hypothesis := fun heq => hfield (heq ▸ by decide)
    have hclasses : field ≠ .classes := fun heq => hfield (heq ▸ by decide)
    have hordinal : field ≠ .ordinal := fun heq => hfield (heq ▸ by decide)
    cases h <;>
      simp only [defaultConfig, defaultClasses, LearnerConfig.setting_set, hhypothesis, hclasses,
        hordinal, hrate, if_false]

private theorem find?_complete_aux (h : Hypothesis) (params : Params α) {field : Field}
    (hfield : field ∈ completed) :
    ((h.complete params).find? field.name).getD (LearnerConfig.default.setting field) =
      if h.Fixes field then h.defaultConfig.setting field
      else (params.find? field.name).getD (h.assumed field) := by
  simp only [completed, List.mem_cons, List.not_mem_nil, or_false] at hfield
  rcases hfield with rfl | rfl | rfl <;> cases h <;>
    simp only [complete, defaultClasses, reduceCtorEq, if_true, if_false, Params.find?_insert,
      Params.find?_insert_unless, Fixes, true_or, false_or, and_true, and_false,
      Option.getD_some] <;> rfl

/-- What an algorithm takes from parameters. -/
theorem find?_complete (h : Hypothesis) (params : Params α) (field : Field) :
    ((h.complete params).find? field.name).getD (LearnerConfig.default.setting field) =
      if h.Fixes field then h.defaultConfig.setting field
      else (params.find? field.name).getD (h.assumed field) := by
  by_cases hfield : field ∈ completed
  · exact find?_complete_aux h params hfield
  · have hnot : ¬h.Fixes field := by
      rintro (rfl | ⟨-, rfl⟩) <;> exact hfield (by decide)
    rw [if_neg hnot, (h.completes_complete params).find?_eq hfield, assumed_of_not_mem hfield]

omit [Scalar α] in
theorem contains_complete (h : Hypothesis) (params : Params α) :
    (h.complete params).contains reservedName = params.contains reservedName := by
  cases h <;>
    simp only [complete, defaultClasses, reduceCtorEq, if_true, if_false,
      Params.contains_insert_reserved]
  all_goals
    split
    · rfl
    · exact params.contains_insert_reserved .classes _

theorem exists_config (h : Hypothesis) {params : Params α}
    (hreserved : params.contains reservedName = false) : ∃ c, h.config params = .ok c := by
  refine ⟨_, if_neg ?_⟩
  rw [contains_complete, hreserved]
  exact Bool.false_ne_true

/-- Every setting of an algorithm with parameters is fixed, named or assumed. -/
theorem setting_eq_of_config {h : Hypothesis} {params : Params α} {c : LearnerConfig α}
    (hdistinct : params.keys.Pairwise fun a b => (a == b) = false) (hc : h.config params = .ok c)
    (field : Field) :
    c.setting field = if h.Fixes field then h.defaultConfig.setting field
      else (params.find? field.name).getD (h.assumed field) := by
  have hcompletes := h.completes_complete params
  rw [LearnerConfig.setting_of_ofParams (hcompletes.goesOn.distinct hdistinct) hc, find?_complete]

/-- So the settings say which configuration is made. -/
theorem config_eq_of_setting {h : Hypothesis} {params : Params α} {c : LearnerConfig α}
    (hdistinct : params.keys.Pairwise fun a b => (a == b) = false)
    (hreserved : params.contains reservedName = false)
    (hc : ∀ field, c.setting field = if h.Fixes field then h.defaultConfig.setting field
      else (params.find? field.name).getD (h.assumed field)) : h.config params = .ok c := by
  obtain ⟨c', hc'⟩ := exists_config h hreserved
  rw [hc']
  refine congrArg (Except.ok ∘ LearnerConfig.mk) (funext fun field => ?_)
  rw [setting_eq_of_config hdistinct hc', hc]

/-- Parameters that are the same for all fields make the same configuration, whatever else
is named. -/
theorem config_eq_of_find? {h : Hypothesis} {params params' : Params α} {c : LearnerConfig α}
    (hdistinct : params.keys.Pairwise fun a b => (a == b) = false)
    (hdistinct' : params'.keys.Pairwise fun a b => (a == b) = false)
    (hsame : ∀ field : Field, params'.find? field.name = params.find? field.name)
    (hreserved : params'.contains reservedName = false) (hc : h.config params = .ok c) :
    h.config params' = .ok c := by
  refine config_eq_of_setting hdistinct' hreserved fun field => ?_
  rw [setting_eq_of_config hdistinct hc, hsame]

/-- Without parameters, an algorithm has its default settings, but for the learning rate of
counts. -/
theorem config_empty {h : Hypothesis} (hpoisson : h ≠ .poisson) :
    h.config (Table.empty : Params α) = .ok h.defaultConfig := by
  refine config_eq_of_setting .nil rfl fun field => ?_
  split
  · rfl
  · exact (assumed_eq_default fun hrate => hpoisson hrate.1).symm

end Hypothesis

/-! ## Recommenders -/

/-- A recommender of a hypothesis that works with the settings of a configuration. -/
structure Recommender.Carries [Scalar α] (r : Recommender α) (h : Hypothesis)
    (c : LearnerConfig α) : Prop where
  hypothesis : r.learner.hypothesis = h
  strategy : r.strategy = if h.predictsValue then .targetScore else .mostProbable
  learningRate : r.learner.gradient.rate = c.setting .learningRate
  biasPenalty : r.learner.biasPenalty = c.setting .biasPenalty
  factorPenalty : r.learner.factorPenalty = c.setting .factorPenalty
  cutPenalty : r.learner.cutPenalty = c.setting .cutPenalty
  clampCuts : r.learner.clampCuts = c.setting .clampCuts
  scope : r.learner.scope = if (c.setting .sideInfo).isOn then
    .sideInfo (c.setting .userSidePenalty) (c.setting .itemSidePenalty)
      (c.setting .dynamicSidePenalty) else .factors
  epochs : r.epochs = c.setting .epochs
  classes : LearnerConfig.classCount (c.setting .classes) = .ok r.store.shape.classes
  factorSize : r.store.shape.factorSize = c.setting .factorSize
  userSideSize : r.store.shape.userSideSize = c.setting .userSideSize
  itemSideSize : r.store.shape.itemSideSize = c.setting .itemSideSize
  dynamicSideSize : r.store.shape.dynamicSideSize = c.setting .dynamicSideSize

variable [Scalar α]

namespace LearnerConfig

theorem carries_of_recommender {c : LearnerConfig α} {h : Hypothesis} (hresolve : c.resolve = .ok h)
    {draws : Draws α} {r : Recommender α} (hr : c.recommender draws = .ok r) : r.Carries h c := by
  obtain ⟨h', shape, hresolve', hshape, rfl⟩ := recommender_eq_create hr
  cases hresolve.symm.trans hresolve'
  obtain ⟨hclasses, -, hfactors, huser, hitem, hdynamic⟩ := shape_eq_ok hshape
  exact ⟨rfl, rfl, rfl, rfl, rfl, rfl, rfl, rfl, rfl, hclasses, hfactors, huser, hitem, hdynamic⟩

end LearnerConfig

namespace Hypothesis

theorem carries_of_config {h : Hypothesis} {params : Params α} {c : LearnerConfig α}
    (hdistinct : params.keys.Pairwise fun a b => (a == b) = false) (hc : h.config params = .ok c)
    {draws : Draws α} {r : Recommender α} (hr : c.recommender draws = .ok r) : r.Carries h c := by
  obtain ⟨h', -, hresolve, -⟩ := LearnerConfig.recommender_eq_create hr
  have hname : c.setting .hypothesis = .text h.parameter := by
    rw [setting_eq_of_config hdistinct hc, if_pos (.inl rfl)]
    cases h <;> rfl
  cases eq_of_resolve hname hresolve
  exact LearnerConfig.carries_of_recommender hresolve hr

/-- A number of classes that a hypothesis admits and that can be listed makes a
recommender. -/
theorem exists_recommender {c : LearnerConfig α} {h : Hypothesis} {n : Int}
    (hname : c.setting .hypothesis = .text h.parameter)
    (hclasses : c.setting .classes = .ofInt n)
    (hadmits : LearnerConfig.admits h (.ofInt n : Setting α) = .ok true)
    (hcount : LearnerConfig.classCount (.ofInt n : Setting α) = .ok n) (draws : Draws α) :
    ∃ r, c.recommender draws = .ok r ∧ r.Carries h c := by
  rw [← hclasses] at hadmits hcount
  have hresolve : c.resolve = .ok h := resolve_of_parameter hname hadmits
  have hmade : ∃ r, c.recommender draws = .ok r := by
    rw [LearnerConfig.recommender, hresolve, Outcome.bind_ok, LearnerConfig.shape, hcount]
    exact ⟨_, rfl⟩
  obtain ⟨r, hr⟩ := hmade
  exact ⟨r, hr, LearnerConfig.carries_of_recommender hresolve hr⟩

/-- The defaults of an algorithm make a recommender. -/
theorem exists_default (h : Hypothesis) (draws : Draws α) :
    ∃ r, h.defaultConfig.recommender draws = .ok r ∧ r.Carries h h.defaultConfig := by
  have hcount (n : Int) (hclasses : h.defaultConfig.setting .classes = (.ofInt n : Setting α))
      (hadmits : LearnerConfig.admits h (.ofInt n : Setting α) = .ok true)
      (hcount : LearnerConfig.classCount (.ofInt n : Setting α) = .ok n) :
      ∃ r, h.defaultConfig.recommender draws = .ok r ∧ r.Carries h h.defaultConfig :=
    exists_recommender (by cases h <;> rfl) hclasses hadmits hcount draws
  cases h with
  | ols | poisson => exact hcount 1 rfl rfl rfl
  | logistic => exact hcount 2 rfl rfl rfl
  | softmax | ordinal => exact hcount 5 rfl rfl rfl

end Hypothesis

/-! ## The theorem -/

/-- The settings that an algorithm with parameters makes a recommender with.  A field that
is named has the setting that is given, unless the algorithm fixes it, and other names
change nothing.

A field that is not named has the setting of the algorithm without parameters, but for
one: the learning rate of counts is then that of any configuration, and not the smaller one
of its defaults.  So without parameters all algorithms but that for counts have their
defaults. -/
theorem parameters_override_what_they_name (h : Hypothesis) (draws : Draws α) :
    (∀ {params : Params α} {c r}, (params.keys.Pairwise fun a b => (a == b) = false) →
      h.config params = .ok c → c.recommender draws = .ok r →
      r.Carries h c ∧
      (∀ field s, params.find? field.name = some s → ¬h.Fixes field → c.setting field = s) ∧
      (∀ field, h.Fixes field → c.setting field = h.defaultConfig.setting field) ∧
      (∀ field, params.find? field.name = none → ¬(h = .poisson ∧ field = .learningRate) →
        c.setting field = h.defaultConfig.setting field) ∧
      (params.find? Field.learningRate.name = none →
        c.setting .learningRate = LearnerConfig.default.setting .learningRate) ∧
      ∀ params' : Params α, (params'.keys.Pairwise fun a b => (a == b) = false) →
        (∀ field : Field, params'.find? field.name = params.find? field.name) →
        params'.contains reservedName = false → h.config params' = .ok c) ∧
    (∃ r, h.defaultConfig.recommender draws = .ok r ∧ r.Carries h h.defaultConfig) ∧
    (h ≠ .poisson → h.config (Table.empty : Params α) = .ok h.defaultConfig) := by
  refine ⟨fun {params c r} hdistinct hc hr => ?_, h.exists_default draws,
    Hypothesis.config_empty⟩
  have hsetting := Hypothesis.setting_eq_of_config hdistinct hc
  refine ⟨Hypothesis.carries_of_config hdistinct hc hr, fun field s hnamed hfree => ?_,
    fun field hfixed => ?_, fun field hnone hrate => ?_, fun hnone => ?_,
    fun params' hdistinct' hsame hreserved =>
      Hypothesis.config_eq_of_find? hdistinct hdistinct' hsame hreserved hc⟩
  · rw [hsetting, if_neg hfree, hnamed, Option.getD_some]
  · rw [hsetting, if_pos hfixed]
  · rw [hsetting, hnone, Option.getD_none, Hypothesis.assumed_eq_default hrate, ite_self]
  · have hfree : ¬h.Fixes .learningRate := by
      rintro (hfield | ⟨-, hfield⟩) <;> cases hfield
    rw [hsetting, if_neg hfree, hnone, Option.getD_none, Hypothesis.assumed, if_pos rfl]

/-- Ordered classes with another hypothesis, two fields and a name that is no field; the
same without the names that do not count. -/
theorem parameters_override_what_they_name_ordinal :
    let params : Params ℚ := ⟨[("hypothesis", .text "ols"), ("factor_size", .ofInt 4),
      ("colour", .text "red"), ("classes", .ofInt 3)]⟩
    ∃ c r, Hypothesis.ordinal.config params = .ok c ∧
      c.recommender (.ofSource fun _ => 0) = .ok r ∧ r.learner.hypothesis = .ordinal ∧
      r.store.shape.factorSize = .ofInt 4 ∧ r.store.shape.classes = 3 ∧
      r.learner.gradient.rate = .ofReal (Scalar.decimal 5 3) ∧ r.epochs = .ofInt 50 ∧
      Hypothesis.ordinal.config (⟨[("hypothesis", .text "ols"), ("factor_size", .ofInt 4),
        ("classes", .ofInt 3)]⟩ : Params ℚ) = .ok c := by
  intro params
  obtain ⟨c, hc⟩ : ∃ c, Hypothesis.ordinal.config params = .ok c := ⟨_, rfl⟩
  obtain ⟨r, hr, -⟩ : ∃ r, c.recommender (.ofSource fun _ => 0) = .ok r ∧
      r.Carries .ordinal c := by
    injection hc with hc
    rw [← hc]
    exact Hypothesis.exists_recommender (n := 3) rfl rfl rfl rfl _
  obtain ⟨hcarries, hgiven, -, hdefault, -, hother⟩ :=
    (parameters_override_what_they_name .ordinal (.ofSource fun _ => 0)).1 (by decide) hc hr
  refine ⟨c, r, hc, hr, hcarries.hypothesis, ?_, ?_, ?_, ?_, ?_⟩
  · rw [hcarries.factorSize, hgiven .factorSize _ rfl (by decide)]
  · have hclasses := hcarries.classes
    rw [hgiven .classes _ rfl (by decide)] at hclasses
    injection hclasses with hclasses
    exact hclasses.symm
  · rw [hcarries.learningRate, hdefault .learningRate rfl (by decide)]
    rfl
  · rw [hcarries.epochs, hdefault .epochs rfl (by decide)]
    rfl
  · refine hother _ (by decide) (fun field => ?_) rfl
    cases field <;> rfl

/-- Without parameters, counts are learned with another rate than by default. -/
theorem counts_forget_their_rate :
    ∃ c r r₀, Hypothesis.poisson.config (Table.empty : Params ℚ) = .ok c ∧
      c.recommender (.ofSource fun _ => 0) = .ok r ∧
      Hypothesis.poisson.defaultConfig.recommender (.ofSource fun _ => 0) = .ok r₀ ∧
      r.learner.gradient.rate = .ofReal (5 / 1000) ∧
      r₀.learner.gradient.rate = .ofReal (1 / 1000) ∧
      r.learner.gradient.rate ≠ r₀.learner.gradient.rate := by
  obtain ⟨c, hc⟩ : ∃ c, Hypothesis.poisson.config (Table.empty : Params ℚ) = .ok c := ⟨_, rfl⟩
  have hassumed : c.setting .learningRate = .ofReal (Scalar.decimal 5 3) := by
    rw [Hypothesis.setting_eq_of_config .nil hc]
    rfl
  obtain ⟨r, hr, hcarries⟩ : ∃ r, c.recommender (.ofSource fun _ => 0) = .ok r ∧
      r.Carries .poisson c := by
    injection hc with hc
    rw [← hc]
    exact Hypothesis.exists_recommender (n := 1) rfl rfl rfl rfl _
  obtain ⟨r₀, hr₀, hcarries₀⟩ := Hypothesis.poisson.exists_default (.ofSource fun _ => (0 : ℚ))
  have hrate : r.learner.gradient.rate = .ofReal (5 / 1000) := by
    rw [hcarries.learningRate, hassumed, ExactScalar.decimal_eq]
    norm_num
  have hrate₀ : r₀.learner.gradient.rate = .ofReal (1 / 1000) := by
    rw [hcarries₀.learningRate]
    refine congrArg Setting.ofReal ?_
    rw [ExactScalar.decimal_eq]
    norm_num
  refine ⟨c, r, r₀, hc, hr, hr₀, hrate, hrate₀, ?_⟩
  rw [hrate, hrate₀]
  intro h
  injection h with h
  injection h with h
  norm_num at h

end LatentFactors
