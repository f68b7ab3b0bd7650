import LatentFactors.Proofs.Arithmetic.Real
import LatentFactors.Proofs.Hypothesis.Distribution
import LatentFactors.Proofs.Learner.Progress

/-!
# Predictions in every state

An update of the thresholds may move them anywhere, and only clamping keeps
them in order.  A clamped update leaves increments above zero
(`Learner.Change.tail_cuts`), no other change touches the thresholds, and they
start with increments above zero (`Store.pos_of_mem_initialCuts`).  So the
thresholds of ordered classes rise in every store that a run can reach, and
with them all predictions for classes are distributions
(`predictions_are_distributions`).
-/

namespace LatentFactors

variable {K : Type} [ExactScalar K]

/-! ## Thresholds -/

/-- The first increments of ordered classes are positive. -/
theorem Store.pos_of_mem_initialCuts {shape : Shape K} (hordinal : shape.ordinal = true)
    (draws : Draws K) {x : K} (hx : x ∈ (initialCuts shape draws).1.tail) : 0 < x := by
  unfold initialCuts at hx
  rw [hordinal] at hx
  cases hcount : shape.cutCount with
  | zero =>
    rw [hcount] at hx
    cases hx
  | succ n =>
    rw [hcount] at hx
    obtain ⟨-, rfl⟩ := List.mem_replicate.1 hx
    have hclasses : (0 : K) < ((n + 1 : Int) : K) := by
      exact_mod_cast Nat.succ_pos n
    have hnine : (0 : K) < (9 : Nat) := by exact_mod_cast Nat.succ_pos 8
    have hten : (0 : K) < 10 := by norm_num
    rw [ExactScalar.decimal_eq, ExactScalar.ofInt_eq]
    exact div_pos (div_pos hnine (pow_pos hten 1)) hclasses

namespace Learner

variable {l : Learner K} {s t : Store K}

/-- A property of all increments that the smallest one allowed has, and every
larger one, is kept by every change. -/
theorem Change.tail_cuts {P : K → Prop} (h : l.Change s t) (hclamp : l.clampCuts.isOn = true)
    (hP : ∀ x, Gradient.minIncrement ≤ x → P x) (hs : ∀ x ∈ s.cuts.tail, P x) :
    ∀ x ∈ t.cuts.tail, P x := by
  cases h with
  | grow user item t h =>
    rw [h.cuts]
    exact hs
  | give key v h => exact hs
  | forget key => exact hs
  | learn user item y g u new hgather himprove =>
    intro x hx
    obtain ⟨scored, predicted, himproves⟩ := improve_eq_ok himprove
    have hcuts := himproves.cuts
    rw [hclamp] at hcuts
    exact hP x (Gradient.minIncrement_le_of_updateCuts hcuts hx)

theorem tail_cuts_after {P : K → Prop} (hclamp : l.clampCuts.isOn = true)
    (hP : ∀ x, Gradient.minIncrement ≤ x → P x) (hs : ∀ x ∈ s.cuts.tail, P x)
    (actions : List (Action K)) : ∀ x ∈ (l.after actions s).cuts.tail, P x :=
  after_induction (P := fun t => ∀ x ∈ t.cuts.tail, P x) hs
    (fun _ _ hu h => h.tail_cuts hclamp hP hu) actions

theorem minIncrement_le_of_train {user item : Id} {y : Numeral K}
    (hclamp : l.clampCuts.isOn = true) (h : ((l.train user item y).run s).1 = .ok ()) {x : K}
    (hx : x ∈ ((l.train user item y).run s).2.cuts.tail) : Gradient.minIncrement ≤ x := by
  rcases hrun : (l.train user item y).run s with ⟨r, t⟩
  rw [hrun] at h hx
  dsimp only at h hx
  rcases train_cases hrun with ⟨-, e, he⟩ | ⟨-, -, e, he⟩ | ⟨g, u, new, -, himprove, -, rfl⟩
  · rw [h] at he
    cases he
  · rw [h] at he
    cases he
  · obtain ⟨scored, predicted, himproves⟩ := improve_eq_ok himprove
    have hcuts := himproves.cuts
    rw [hclamp] at hcuts
    exact Gradient.minIncrement_le_of_updateCuts hcuts hx

/-- After an accepted step no increment is below the smallest one. -/
theorem minIncrement_le_after_train {user item : Id} {y : Numeral K} {before : List (Action K)}
    (hclamp : l.clampCuts.isOn = true)
    (h : ((l.train user item y).run (l.after before s)).1 = .ok ()) (later : List (Action K)) :
    ∀ x ∈ (l.after (before ++ .train user item y :: later) s).cuts.tail,
      Gradient.minIncrement ≤ x := by
  rw [after_append, after_cons]
  exact tail_cuts_after hclamp (fun _ hx => hx)
    (fun x hx => minIncrement_le_of_train hclamp h hx) later

/-- The scores of ordered classes are rising thresholds, shifted by a score, if
the increments in the store are positive. -/
theorem exists_thresholds {user item : Id} {g : Gathered K} {scores : List K}
    (hcuts : ∀ x ∈ s.cuts.tail, 0 < x) (hgather : (l.gather user item).run s = (.ok g, t))
    (hscores : l.scores g = .ok scores) (hordinal : l.hypothesis = .ordinal) :
    ∃ (thresholds : List K) (score : K), thresholds.Pairwise (· < ·) ∧
      scores = thresholds.map (· - score) := by
  have hsame : g.cuts = s.cuts :=
    (readFrom_of_run hgather).cuts.trans ((gather_moves l user item).of_run hgather).cuts
  rw [Learner.scores, hordinal] at hscores
  obtain ⟨v, -, hscores⟩ := Outcome.bind_eq_ok.1 hscores
  obtain ⟨w, -, hscores⟩ := Outcome.bind_eq_ok.1 hscores
  obtain ⟨score, -, hscores⟩ := Outcome.bind_eq_ok.1 hscores
  injection hscores with hscores
  refine ⟨Scalar.running s.cuts, score, Scalar.pairwise_running hcuts, ?_⟩
  rw [← hscores, hsame]

end Learner

/-- The increments of ordered classes are positive in every store that a
recommender with clamping can reach. -/
theorem LearnerConfig.increments_pos {c : LearnerConfig K} {draws : Draws K} {r : Recommender K}
    (hr : c.recommender draws = .ok r) (hclamp : r.learner.clampCuts.isOn = true)
    (hordinal : r.learner.hypothesis = .ordinal) (actions : List (Action K)) :
    ∀ x ∈ (r.learner.after actions r.store).cuts.tail, 0 < x := by
  obtain ⟨h, shape, -, hshape, hlearner, hstore, -⟩ := recommender_eq_ok hr
  have hkind : h = .ordinal := by
    rw [hlearner] at hordinal
    exact hordinal
  refine Learner.tail_cuts_after hclamp (fun x hx => Gradient.minIncrement_pos.trans_le hx) ?_
    actions
  rw [hstore]
  refine fun x hx => Store.pos_of_mem_initialCuts ?_ draws hx
  rw [(shape_eq_ok hshape).2.1, hkind]
  rfl

/-! ## Distributions -/

/-- The recommenders of a sized configuration for classes, with clamping.  In
every store that a run can reach the thresholds of ordered classes rise, by at
least the smallest increment once a step was accepted, and the prediction for
a user and an item is a distribution over the classes.  So no step divides by
the probability of a class and finds zero. -/
theorem predictions_are_distributions (hlinks : LinkLaws K) (c : LearnerConfig K)
    (hsized : c.Sized) (hclamp : (c.setting .clampCuts).isOn = true) (draws : Draws K)
    (r : Recommender K) (hr : c.recommender draws = .ok r)
    (hclasses : r.learner.hypothesis.predictsValue = false) (actions : List (Action K)) :
    let s := r.learner.after actions r.store
    (r.learner.hypothesis = .ordinal →
      (∀ x ∈ s.cuts.tail, 0 < x) ∧
      (∀ before user item y later, actions = before ++ .train user item y :: later →
        ((r.learner.train user item y).run (r.learner.after before r.store)).1 = .ok () →
          ∀ x ∈ s.cuts.tail, 1 / 10 ^ 6 ≤ x) ∧
      (Scalar.running s.cuts).Pairwise (· < ·)) ∧
    ∀ user item,
      (∃ distribution, ((r.learner.predictFull user item).run s).1 = .ok distribution ∧
        (distribution.length : Int) = s.shape.classCount ∧ IsDistribution distribution) ∧
      ∀ g t scores prediction label p, (r.learner.gather user item).run s = (.ok g, t) →
        r.learner.scores g = .ok scores → r.learner.hypothesis.predict scores = .ok prediction →
          Outcome.nth prediction label = (.ok p : Outcome K K) → p ≠ 0 := by
  intro s
  obtain ⟨h, shape, hresolve, hshape, hlearner, -, -, hsame, hwell⟩ :=
    LearnerConfig.reached hr actions
  change s.shape = shape at hsame
  have hclamped : r.learner.clampCuts.isOn = true := by
    rw [hlearner]
    exact hclamp
  have hrising (hordinal : r.learner.hypothesis = .ordinal) : ∀ x ∈ s.cuts.tail, 0 < x :=
    LearnerConfig.increments_pos hr hclamped hordinal actions
  refine ⟨fun hordinal => ⟨hrising hordinal, ?_, ?_⟩, fun user item => ⟨?_, ?_⟩⟩
  · intro before user item y later hactions haccepted
    rw [← Gradient.minIncrement_eq]
    show ∀ x ∈ (r.learner.after actions r.store).cuts.tail, Gradient.minIncrement ≤ x
    rw [hactions]
    exact Learner.minIncrement_le_after_train hclamped haccepted later
  · exact Scalar.pairwise_running (hrising hordinal)
  · have hadmits : s.shape.Admits r.learner.hypothesis := by
      rw [hsame, hlearner]
      exact LearnerConfig.admits_of_exact hresolve hshape
    have hreadable : r.learner.Readable s.shape := by
      rw [hlearner, hsame]
      exact hsized.readable hshape
    have hscope : r.learner.requireScope = .ok () := by
      rw [hlearner]
      exact c.requireScope_learner h
    obtain ⟨g, t, scores, hgather, hscores, hrun, hcount⟩ :=
      Learner.exists_linearCombination hwell hreadable hscope user item
    obtain ⟨distribution, hfull, hlength⟩ := Hypothesis.exists_predictFull hadmits hcount
    refine ⟨distribution, ?_, hlength, ?_⟩
    · rw [Learner.predictFull, Store.run_bind_of_ok hrun, Store.run_lift]
      exact hfull
    · refine Hypothesis.isDistribution_predictFull hlinks hclasses (fun hordinal => ?_) hfull
      exact Learner.exists_thresholds (hrising hordinal) hgather hscores hordinal
  · intro g t scores prediction label p hgather hscores hprediction hp
    refine (Hypothesis.pos_of_mem_predict hlinks hclasses (fun hordinal => ?_) hprediction
      (List.mem_of_getElem? (Outcome.nth_eq_ok_iff.1 hp))).ne'
    exact Learner.exists_thresholds (hrising hordinal) hgather hscores hordinal

/-- Three ordered classes in real arithmetic, after the last of them was learned. -/
theorem predictions_are_distributions_real :
    let c : LearnerConfig ℝ :=
      (LearnerConfig.default.set .ordinal (.flag true)).set .classes (.ofInt 3)
    ∃ r, c.recommender (.ofSource fun _ => 0) = .ok r ∧
      ((r.learner.train (.int 1) (.int 7) (.integer 2)).run r.store).1 = .ok () ∧
      let s := r.learner.after [.train (.int 1) (.int 7) (.integer 2)] r.store
      (∀ x ∈ s.cuts.tail, 1 / 10 ^ 6 ≤ x) ∧ (Scalar.running s.cuts).Pairwise (· < ·) ∧
      ∃ distribution, ((r.learner.predictFull (.int 1) (.int 7)).run s).1 = .ok distribution ∧
        (distribution.length : Int) = 3 ∧ IsDistribution distribution := by
  intro c
  have htyped : c.Typed := by
    refine ⟨⟨3, rfl⟩, fun f hf => ?_⟩
    simp only [Field.rates, List.mem_cons, List.not_mem_nil, or_false] at hf
    rcases hf with rfl | rfl | rfl | rfl | rfl | rfl | rfl <;> exact ⟨_, rfl⟩
  have hsized : c.Sized := ⟨⟨150, rfl, by decide⟩, fun hon => Bool.noConfusion hon⟩
  refine ⟨_, rfl, ?_⟩
  have hlabel : (c.learner .ordinal).gradient.checkLabel (.integer 2) 3 = .ok () :=
    rfl
  have hr : c.recommender (.ofSource fun _ => 0) = .ok _ := rfl
  obtain ⟨t, ht⟩ :=
    LearnerConfig.exists_run_train htyped hsized hr [] (.int 1) (.int 7) ⟨_, rfl⟩ hlabel
  have haccepted := congrArg Prod.fst ht
  obtain ⟨hcuts, hpredictions⟩ := predictions_are_distributions linkLaws_real c hsized rfl
    (.ofSource fun _ => 0) _ rfl rfl [.train (.int 1) (.int 7) (.integer 2)]
  obtain ⟨-, hleast, hrising⟩ := hcuts rfl
  obtain ⟨distribution, hdistribution, hlength, hproper⟩ := (hpredictions (.int 1) (.int 7)).1
  refine ⟨haccepted, hleast [] _ _ _ [] rfl haccepted, hrising, distribution, hdistribution, ?_,
    hproper⟩
  rw [hlength, Learner.shape_after]
  rfl

/-- Without room for the constant ones there are no factors, and none start that are
larger than arrays can be.  Side information of a size that no word with a sign holds has no
products.  Then there is no prediction, although the recommender can be built. -/
theorem predictFull_fails_without_sizes :
    let c : LearnerConfig ℝ := LearnerConfig.default.set .classes (.ofInt 2)
    (c.setting .clampCuts).isOn = true ∧
      (∃ r, (c.set .factorSize (.ofInt (-1))).recommender (.ofSource fun _ => 0) = .ok r ∧
        r.learner.hypothesis = .logistic ∧
        ((r.learner.predictFull (.int 1) (.int 7)).run r.store).1 = .error .indexOutOfRange) ∧
      (∃ r, (c.set .factorSize (.ofInt (arrayLimit - 3))).recommender (.ofSource fun _ => 0) =
          .ok r ∧ r.learner.hypothesis = .logistic ∧
        ((r.learner.predictFull (.int 1) (.int 7)).run r.store).1 = .error .noSize) ∧
      ∃ r, (((c.set .factorSize (.ofInt 0)).set .sideInfo (.flag true)).set .itemSideSize
          (.ofInt signedLimit)).recommender (.ofSource fun _ => 0) = .ok r ∧
        r.learner.hypothesis = .logistic ∧
        ((r.learner.predictFull (.int 1) (.int 7)).run r.store).1 = .error .tooLarge :=
  ⟨rfl, ⟨_, rfl, rfl, rfl⟩, ⟨_, rfl, rfl, rfl⟩, _, rfl, rfl, rfl⟩

end LatentFactors
