import LatentFactors.Proofs.Arithmetic
import LatentFactors.Proofs.Outcome
import LatentFactors.Proofs.Store.Shape
import LatentFactors.Config

/-!
# What a configuration promises

A recommender that could be built has a hypothesis that admits its number of
classes (`LearnerConfig.admits_of_integer`, and `LearnerConfig.admits_of_exact`
where the number of classes may be any number of an exact arithmetic).

Other settings are not looked at until they are used.  `LearnerConfig.Typed`
and `LearnerConfig.Sized` name what the uses ask for.
-/

namespace LatentFactors

variable {α : Type}

theorem Setting.numeral_of_count {s : Setting α} {n : Int} (h : s.count = .ok n) :
    s.numeral = .ok (.integer n) := by
  unfold count at h
  split at h
  · injection h with h
    rw [← h]
    rfl
  · injection h with h
    rw [← h]
    rfl
  · cases h

theorem Setting.count_of_numeral {s : Setting α} {n : Int} (h : s.numeral = .ok (.integer n)) :
    s.count = .ok n := by
  cases s with
  | number y =>
    cases h
    rfl
  | flag b =>
    cases h
    rfl
  | text _ | absent | list _ | table _ => cases h

variable [Scalar α]

theorem Setting.isExactly_of_numeral {s : Setting α} {y : Numeral α} (h : s.numeral = .ok y)
    (n : Int) : s.isExactly n = y.isExactly n := by
  unfold numeral at h
  rw [isExactly]
  split at h
  · next hsome =>
    injection h with h
    rw [hsome, h, Option.any_some]
  · cases h

/-- Whether a number is on the same sides of the bounds of the hypotheses as an
integer. -/
structure Numeral.CountsAs (y : Numeral α) (n : Int) : Prop where
  below_three : y.isBelow 3 = decide (n < 3)
  below_two : y.isBelow 2 = decide (n < 2)
  exactly_two : y.isExactly 2 = decide (n = 2)
  above_one : y.isAbove 1 = decide (1 < n)

theorem Numeral.countsAs_integer (n : Int) : (integer n : Numeral α).CountsAs n :=
  ⟨rfl, rfl, rfl, rfl⟩

/-- In exact arithmetic every number up to one counts as one. -/
theorem Numeral.countsAs_one {K : Type} [ExactScalar K] {x : K}
    (h : Scalar.atMost x (Scalar.ofInt 1) = true) : (real x).CountsAs 1 := by
  rw [ExactScalar.atMost_iff, ExactScalar.ofInt_eq, Int.cast_one] at h
  have hthree : x < 3 := lt_of_le_of_lt h (by norm_num)
  have htwo : x < 2 := lt_of_le_of_lt h one_lt_two
  refine ⟨?_, ?_, ?_, ?_⟩
  · show Scalar.less x (Scalar.ofInt 3) = true
    rw [ExactScalar.less_iff, ExactScalar.ofInt_eq]
    exact_mod_cast hthree
  · show Scalar.less x (Scalar.ofInt 2) = true
    rw [ExactScalar.less_iff, ExactScalar.ofInt_eq]
    exact_mod_cast htwo
  · show Scalar.equals x (Scalar.ofInt 2) = false
    rw [← Bool.not_eq_true, ExactScalar.equals_iff, ExactScalar.ofInt_eq]
    exact_mod_cast htwo.ne
  · show Scalar.less (Scalar.ofInt 1) x = false
    rw [← Bool.not_eq_true, ExactScalar.less_iff, ExactScalar.ofInt_eq, Int.cast_one]
    exact not_lt.2 h

/-- The rates and penalties of a learner. -/
def Field.rates : List Field :=
  [learningRate, biasPenalty, factorPenalty, userSidePenalty, itemSidePenalty,
    dynamicSidePenalty, cutPenalty]

/-- The sizes of side information. -/
def Field.sideSizes : List Field := [userSideSize, itemSideSize, dynamicSideSize]

namespace LearnerConfig

/-- An integer number of classes, and rates to multiply by. -/
structure Typed (c : LearnerConfig α) : Prop where
  classes : ∃ n, (c.setting .classes).count = .ok n
  rates : ∀ f ∈ Field.rates, ∃ x, (c.setting f).vectorFactor = .ok x

/-- A count of factors that arrays have, and, with side information, counts of it
that a word holds. -/
structure Sized (c : LearnerConfig α) : Prop where
  factors : ∃ n : Nat, (c.setting .factorSize).count = .ok (n : Int) ∧ (n + 3 : Int) < arrayLimit
  sides : (c.setting .sideInfo).isOn = true → ∀ f ∈ Field.sideSizes,
    ∃ m : Nat, (c.setting f).vectorSize = .ok (m : Int) ∧ (m : Int) < signedLimit

variable {c : LearnerConfig α} {h : Hypothesis} {shape : Shape α}

/-- A recommender is built from a hypothesis and sizes, and it estimates by what its
hypothesis predicts. -/
theorem recommender_eq_create {draws : Draws α} {r : Recommender α}
    (hr : c.recommender draws = .ok r) :
    ∃ h shape, c.resolve = .ok h ∧ c.shape h = .ok shape ∧
      r = .create (c.learner h) (c.setting .epochs) none
        (if h.predictsValue then .targetScore else .mostProbable) (.create shape draws) := by
  obtain ⟨h, hh, hr⟩ := Outcome.bind_eq_ok.1 hr
  obtain ⟨shape, hshape, hr⟩ := Outcome.bind_eq_ok.1 hr
  injection hr with hr
  exact ⟨h, shape, hh, hshape, hr.symm⟩

/-- A recommender is built from a hypothesis and sizes, with nothing learned
and the last class as its target. -/
theorem recommender_eq_ok {draws : Draws α} {r : Recommender α}
    (hr : c.recommender draws = .ok r) :
    ∃ h shape, c.resolve = .ok h ∧ c.shape h = .ok shape ∧ r.learner = c.learner h ∧
      r.store = .create shape draws ∧ r.target = shape.classCount - 1 := by
  obtain ⟨h, shape, hh, hshape, rfl⟩ := recommender_eq_create hr
  exact ⟨h, shape, hh, hshape, rfl, rfl, rfl⟩

private theorem admits_of_check_aux {classes : Setting α} {h' : Hypothesis}
    (hh : (do if ← admits h' classes then return h' else throw (.classCount h' classes.spelling)) =
      (Except.ok h : Outcome α Hypothesis)) : admits h classes = .ok true := by
  obtain ⟨admitted, hadmits, hh⟩ := Outcome.bind_eq_ok.1 hh
  split at hh
  · next htrue =>
    injection hh with hh
    rw [← hh, hadmits, htrue]
  · cases hh

theorem admits_of_resolve (hh : c.resolve = .ok h) :
    admits h (c.setting .classes) = .ok true := by
  unfold resolve at hh
  dsimp only at hh
  split at hh
  · split at hh
    · obtain ⟨h', -, hh⟩ := Outcome.bind_eq_ok.1 hh
      exact admits_of_check_aux hh
    · obtain ⟨y, -, hh⟩ := Outcome.bind_eq_ok.1 hh
      obtain ⟨h', -, hh⟩ := Outcome.bind_eq_ok.1 hh
      exact admits_of_check_aux hh
  · obtain ⟨h', -, hh⟩ := Outcome.bind_eq_ok.1 hh
    exact admits_of_check_aux hh

theorem shape_eq_ok (hs : c.shape h = .ok shape) :
    classCount (c.setting .classes) = .ok shape.classes ∧ shape.ordinal = decide (h = .ordinal) ∧
      shape.factorSize = c.setting .factorSize ∧ shape.userSideSize = c.setting .userSideSize ∧
      shape.itemSideSize = c.setting .itemSideSize ∧
      shape.dynamicSideSize = c.setting .dynamicSideSize := by
  obtain ⟨classes, hclasses, hs⟩ := Outcome.bind_eq_ok.1 hs
  injection hs with hs
  subst hs
  exact ⟨hclasses, rfl, rfl, rfl, rfl, rfl⟩

/-- The number of classes is the integer of the setting, or one. -/
theorem classCount_eq_ok {classes : Setting α} {n : Int} (h : classCount classes = .ok n) :
    classes.numeral = .ok (.integer n) ∨
      n = 1 ∧ ∃ x, classes.numeral = .ok (.real x) ∧ Scalar.atMost x (Scalar.ofInt 1) = true := by
  obtain ⟨y, hy, h⟩ := Outcome.bind_eq_ok.1 h
  cases y with
  | integer m =>
    obtain ⟨_, -, h⟩ := Outcome.bind_eq_ok.1 h
    injection h with h
    rw [h] at hy
    exact Or.inl hy
  | real x =>
    dsimp only at h
    split at h
    · next hle =>
      injection h with h
      exact Or.inr ⟨h.symm, x, hy, hle⟩
    · cases h

private theorem admits_of_countsAs_aux (hh : c.resolve = .ok h) (hs : c.shape h = .ok shape)
    {y : Numeral α} (hy : (c.setting .classes).numeral = .ok y)
    (hcounts : y.CountsAs shape.classes) : shape.Admits h := by
  obtain ⟨-, hordinal, -⟩ := shape_eq_ok hs
  have hadmits := admits_of_resolve hh
  have hallowed {refused : Bool} (h : (.ok !refused : Outcome α Bool) = .ok true) :
      refused = false := by
    injection h with h
    rwa [Bool.not_eq_true'] at h
  unfold Shape.Admits Shape.classCount
  cases h with
  | ols | poisson =>
    rw [admits, hy] at hadmits
    have hone : y.isAbove 1 = false := hallowed hadmits
    rw [hcounts.above_one, decide_eq_false_iff_not, Int.not_lt] at hone
    exact ⟨hordinal, if_pos hone⟩
  | logistic =>
    have htwo : y.isExactly 2 = true := by
      rw [admits, Setting.isExactly_of_numeral hy] at hadmits
      injection hadmits
    rw [hcounts.exactly_two, decide_eq_true_iff] at htwo
    refine ⟨hordinal, ?_⟩
    rw [htwo]
    rfl
  | softmax =>
    rw [admits, hy] at hadmits
    have hthree : y.isBelow 3 = false := hallowed hadmits
    rw [hcounts.below_three, decide_eq_false_iff_not, Int.not_lt] at hthree
    refine ⟨hordinal, ?_⟩
    rw [if_neg (by omega)]
    exact hthree
  | ordinal =>
    rw [admits, hy] at hadmits
    have htwo : y.isBelow 2 = false := hallowed hadmits
    rw [hcounts.below_two, decide_eq_false_iff_not, Int.not_lt] at htwo
    refine ⟨hordinal, ?_⟩
    rw [if_neg (by omega)]
    exact htwo

/-- The sizes admit the hypothesis if the number of classes is an integer. -/
theorem admits_of_integer (hh : c.resolve = .ok h) (hs : c.shape h = .ok shape)
    (hclasses : ∃ n, (c.setting .classes).count = .ok n) : shape.Admits h := by
  obtain ⟨n, hn⟩ := hclasses
  have hnumeral := Setting.numeral_of_count hn
  have hcount : shape.classes = n := by
    rcases classCount_eq_ok (shape_eq_ok hs).1 with hinteger | ⟨-, x, hreal, -⟩
    · rw [hnumeral] at hinteger
      injection hinteger with hinteger
      injection hinteger with hinteger
      exact hinteger.symm
    · rw [hnumeral] at hreal
      cases hreal
  rw [← hcount] at hnumeral
  exact admits_of_countsAs_aux hh hs hnumeral (Numeral.countsAs_integer _)

/-- In exact arithmetic the sizes always admit the hypothesis. -/
theorem admits_of_exact {K : Type} [ExactScalar K] {c : LearnerConfig K} {shape : Shape K}
    (hh : c.resolve = .ok h) (hs : c.shape h = .ok shape) : shape.Admits h := by
  rcases classCount_eq_ok (shape_eq_ok hs).1 with hinteger | ⟨hone, x, hreal, hle⟩
  · exact admits_of_countsAs_aux hh hs hinteger (Numeral.countsAs_integer _)
  · refine admits_of_countsAs_aux hh hs hreal ?_
    rw [hone]
    exact Numeral.countsAs_one hle

/-- Unless the hypothesis is for unordered or for ordered classes, there are at most two
of them. -/
theorem classCount_le_two (hh : c.resolve = .ok h) (hs : c.shape h = .ok shape)
    (hsoftmax : h ≠ .softmax) (hordinal : h ≠ .ordinal) : shape.classCount ≤ 2 := by
  rcases classCount_eq_ok (shape_eq_ok hs).1 with hinteger | ⟨hone, -⟩
  · have hadmits := admits_of_integer hh hs ⟨_, Setting.count_of_numeral hinteger⟩
    cases h with
    | ols | poisson => exact hadmits.2.trans_le (by decide)
    | logistic => exact hadmits.2.le
    | softmax => exact absurd rfl hsoftmax
    | ordinal => exact absurd rfl hordinal
  · rw [Shape.classCount, if_pos hone.le]
    decide

end LearnerConfig

end LatentFactors
