import LatentFactors.Proofs.Config
import LatentFactors.Proofs.Gradient.Steps
import LatentFactors.Proofs.Learner.Sizes

/-!
# Nothing else can fail

In a well sized store a learner can only fail where it is meant to.  A step
fails exactly when the observed value is refused, with the same fault
(`Learner.train_outcome`), and a prediction never fails
(`Learner.exists_linearCombination`, `Learner.exists_predictFull`).

`never_fails` states this for the recommenders of a configuration, in every
store that a run can reach.
-/

namespace LatentFactors

variable {α : Type} [Scalar α]

/-- Penalties to multiply by. -/
structure Learner.Rated (l : Learner α) : Prop where
  bias : ∃ x, l.biasPenalty.factor = .ok x
  factor : ∃ x, l.factorPenalty.factor = .ok x
  cut : ∃ x, l.cutPenalty.vectorFactor = .ok x
  terms : ∀ user item, ∀ term ∈ l.sideTerms user item, ∃ x, term.penalty.factor = .ok x

namespace Learner

variable {l : Learner α} {user item : Id} {y : Numeral α} {g : Gathered α} {shape : Shape α}
  {s : Store α}

theorem length_of_scores (hfits : g.Fits shape) {scores : List α} (h : l.scores g = .ok scores) :
    scores.length = shape.scoreCount l.hypothesis :=
  Hypothesis.length_of_linearCombination hfits.cuts hfits.users hfits.items h

theorem exists_scores (l : Learner α) (hfits : g.Fits shape) (hlistable : g.Listable) :
    ∃ scores, l.scores g = .ok scores := by
  refine Hypothesis.exists_linearCombination l.hypothesis g.cuts hfits.users hfits.items
    (fun v hv w hw => hfits.hasProduct_factors hlistable hv hw) fun term hterm => ?_
  obtain ⟨x, hx, rfl⟩ := List.mem_map.1 hterm
  exact ⟨hfits.parameters x hx, fun p hp => hfits.hasProduct_feature hlistable hx hp⟩

/-- What fits together fails to have scores only where it is too large. -/
theorem fault_of_scores (hfits : g.Fits shape) {e : Fault α} (h : l.scores g = .error e) :
    e = .tooLarge := by
  refine Hypothesis.fault_of_linearCombination hfits.users hfits.items hfits.factors
    (fun term hterm => ?_) h
  obtain ⟨x, hx, rfl⟩ := List.mem_map.1 hterm
  exact ⟨hfits.parameters x hx, hfits.features x hx⟩

private theorem exists_factorPenalty_aux (hrated : l.Rated) (i : Int) :
    ∃ x, (l.factorPenalties.forIndex i).factor = .ok x := by
  rw [Penalties.forIndex]
  split
  · exact hrated.bias
  · exact hrated.factor

private theorem exists_updateTerm_aux (hready : l.gradient.Ready shape y) (hrated : l.Rated)
    (hfits : g.Fits shape) (hlistable : g.Listable) {predicted : List α}
    (hlength : predicted.length = shape.predictionCount l.gradient.hypothesis)
    {x : GatheredTerm α} (hx : x ∈ g.terms) (hterm : x.term ∈ l.sideTerms user item) :
    ∃ new, l.gradient.updateFamily x.parameters (.shared x.feature) y predicted
      ⟨x.term.penalty, .ofReal 0, []⟩ none = .ok new := by
  have hshared : (Features.shared x.feature).forClasses x.parameters.length =
      .ok (List.replicate x.parameters.length x.feature) := rfl
  refine hready.exists_updateFamily hlength (hfits.parameters x hx) hshared
    List.length_replicate ?_ ?_ ?_
  · intro f hf
    rw [(List.mem_replicate.1 hf).2]
    exact List.mem_singleton_self x.feature
  · intro p hp f hf
    rw [List.mem_singleton.1 hf]
    exact hfits.hasProduct_feature hlistable hx hp
  · intro i
    exact hrated.terms user item x.term hterm

/-- What fits together can be improved. -/
theorem exists_improve (hready : l.gradient.Ready shape y) (hrated : l.Rated)
    (hfits : g.Fits shape) (hlistable : g.Listable)
    (hterms : ∀ x ∈ g.terms, x.term ∈ l.sideTerms user item) :
    ∃ new, l.improve y g = .ok new := by
  have husers := hfits.users
  have hitems := hfits.items
  obtain ⟨scored, hscored⟩ := l.exists_scores hfits hlistable
  have hcount := length_of_scores hfits hscored
  obtain ⟨predicted, hpredicted, hlength⟩ := Hypothesis.exists_predict hready.admits hcount
  obtain ⟨cuts, hcuts⟩ := hready.exists_updateCuts l.clampCuts.isOn hfits.cuts hcount hrated.cut
  have hsame : g.items.length = g.users.length := by omega
  obtain ⟨users, hnewUsers⟩ : ∃ new, l.gradient.updateFamily g.users (.perClass g.items) y
      predicted l.factorPenalties (some userIntercept) = .ok new :=
    hready.exists_updateFamily hlength hfits.users (if_neg (not_not.2 hsame)) hsame
      (fun _ hf => hf) (fun v hv w hw => hfits.hasProduct_factors hlistable hv hw)
      (exists_factorPenalty_aux hrated)
  obtain ⟨items, hnewItems⟩ : ∃ new, l.gradient.updateFamily g.items (.perClass g.users) y
      predicted l.factorPenalties (some itemIntercept) = .ok new :=
    hready.exists_updateFamily hlength hfits.items (if_neg (not_not.2 hsame.symm)) hsame.symm
      (fun _ hf => hf) (fun w hw v hv => (hfits.hasProduct_factors hlistable hv hw).symm)
      (exists_factorPenalty_aux hrated)
  obtain ⟨terms, hnewTerms⟩ : ∃ terms, (g.terms.mapM fun t => do
      let updated ← l.gradient.updateFamily t.parameters (.shared t.feature) y predicted
        ⟨t.term.penalty, .ofReal 0, []⟩ none
      return (t.term.key, updated)) = Except.ok terms := by
    refine Outcome.exists_mapM_ok fun x hx => ?_
    obtain ⟨updated, hupdated⟩ :=
      exists_updateTerm_aux hready hrated hfits hlistable hlength hx (hterms x hx)
    refine ⟨(x.term.key, updated), ?_⟩
    rw [hupdated]
    rfl
  refine ⟨⟨cuts, users, items, terms⟩, ?_⟩
  have hprediction : l.hypothesis.predict scored = .ok predicted := hpredicted
  rw [improve, hscored, Outcome.bind_ok, hprediction, Outcome.bind_ok, hcuts, Outcome.bind_ok,
    hnewUsers, Outcome.bind_ok, hnewItems, Outcome.bind_ok, hnewTerms]
  rfl

/-- A user and an item have scores. -/
theorem exists_linearCombination (hs : s.WellSized) (hreadable : l.Readable s.shape)
    (hscope : l.requireScope = .ok ()) (user item : Id) :
    ∃ g t scores, (l.gather user item).run s = (.ok g, t) ∧ l.scores g = .ok scores ∧
      (l.linearCombination user item).run s = (.ok scores, t) ∧
      scores.length = s.shape.scoreCount l.hypothesis := by
  obtain ⟨g, t, hgather⟩ := exists_gather hreadable user item
  have hfits := fits_of_run hs hgather
  obtain ⟨scores, hscores⟩ := l.exists_scores hfits (listable_of_run hs hreadable hgather)
  refine ⟨g, t, scores, hgather, hscores, ?_, length_of_scores hfits hscores⟩
  rw [linearCombination, hscope, Store.run_bind_of_ok (Store.run_lift _ s),
    Store.run_bind_of_ok hgather, Store.run_lift, hscores]

/-- A user and an item have a whole distribution. -/
theorem exists_predictFull (hs : s.WellSized) (hreadable : l.Readable s.shape)
    (hscope : l.requireScope = .ok ()) (hadmits : s.shape.Admits l.hypothesis) (user item : Id) :
    ∃ distribution, ((l.predictFull user item).run s).1 = .ok distribution ∧
      (distribution.length : Int) = s.shape.classCount := by
  obtain ⟨g, t, scores, -, -, hscores, hcount⟩ :=
    exists_linearCombination hs hreadable hscope user item
  obtain ⟨distribution, hdistribution, hlength⟩ := Hypothesis.exists_predictFull hadmits hcount
  refine ⟨distribution, ?_, hlength⟩
  rw [predictFull, Store.run_bind_of_ok hscores, Store.run_lift]
  exact hdistribution

/-- A step fails exactly when the observed value is refused. -/
theorem train_outcome (hs : s.WellSized) (hreadable : l.Readable s.shape)
    (hscope : l.requireScope = .ok ()) (hrated : l.Rated)
    (hrule : l.gradient.rule = .ofHypothesis l.gradient.hypothesis)
    (hadmits : s.shape.Admits l.gradient.hypothesis)
    (hrate : ∃ x, l.gradient.rate.vectorFactor = .ok x) (hy : ∃ x, Outcome.real y = .ok x)
    (user item : Id) :
    ((l.train user item y).run s).1 = l.gradient.checkLabel y s.shape.classCount := by
  rw [train, hscope, Store.run_bind_of_ok (Store.run_lift _ s),
    Store.run_bind_of_ok (Store.run_get s), Store.run_bind, Store.run_lift]
  cases hlabel : l.gradient.checkLabel y s.shape.classCount with
  | error e => rfl
  | ok _ =>
    obtain ⟨g, t, hgather⟩ := exists_gather hreadable user item
    have hterms : ∀ x ∈ g.terms, x.term ∈ l.sideTerms user item :=
      fun _ hx => term_mem_sideTerms (readFrom_of_run hgather).terms hx
    obtain ⟨new, himprove⟩ := exists_improve ⟨hrule, hadmits, hrate, hy, hlabel⟩ hrated
      (fits_of_run hs hgather) (listable_of_run hs hreadable hgather) hterms
    dsimp only
    rw [Store.run_bind_of_ok hgather, himprove, Store.run_bind_of_ok (Store.run_lift _ t),
      run_commit_of_improve hgather himprove]

end Learner

namespace LearnerConfig

variable {c : LearnerConfig α} {h : Hypothesis} {shape : Shape α}

theorem requireScope_learner (c : LearnerConfig α) (h : Hypothesis) :
    (c.learner h).requireScope = .ok () := by
  unfold learner Learner.requireScope
  dsimp only
  split
  · next hscope =>
    split at hscope <;> cases hscope
  · rfl
  · rfl

/-- The sizes of a sized configuration can be read with. -/
theorem Sized.readable (hc : c.Sized) (hs : c.shape h = .ok shape) :
    (c.learner h).Readable shape := by
  obtain ⟨-, -, hfactors, huser, hitem, hdynamic⟩ := shape_eq_ok hs
  constructor
  · rw [hfactors]
    exact hc.factors
  · intro forUser forItem forDynamic hscope owner
    have hon : (c.setting .sideInfo).isOn = true := by
      unfold learner at hscope
      dsimp only at hscope
      split at hscope
      · next hon => exact hon
      · cases hscope
    cases owner with
    | user =>
      show ∃ m : Nat, shape.userSideSize.vectorSize = .ok (m : Int) ∧ _
      rw [huser]
      exact hc.sides hon _ (by decide)
    | item =>
      show ∃ m : Nat, shape.itemSideSize.vectorSize = .ok (m : Int) ∧ _
      rw [hitem]
      exact hc.sides hon _ (by decide)
    | pair =>
      show ∃ m : Nat, shape.dynamicSideSize.vectorSize = .ok (m : Int) ∧ _
      rw [hdynamic]
      exact hc.sides hon _ (by decide)

/-- The penalties of a typed configuration are numbers. -/
theorem Typed.rated (hc : c.Typed) (h : Hypothesis) : (c.learner h).Rated := by
  have hfactor {f : Field} (hf : f ∈ Field.rates) : ∃ x, (c.setting f).factor = .ok x := by
    obtain ⟨x, hx⟩ := hc.rates f hf
    exact ⟨x, Setting.factor_of_vectorFactor hx⟩
  refine ⟨hfactor (by decide), hfactor (by decide), hc.rates _ (by decide), ?_⟩
  intro user item term hterm
  unfold Learner.sideTerms learner at hterm
  dsimp only at hterm
  split at hterm
  · next forUser forItem forDynamic hscope =>
    split at hscope
    · cases hscope
      simp only [List.mem_cons, List.not_mem_nil, or_false] at hterm
      rcases hterm with rfl | rfl | rfl | rfl
      · exact hfactor (by decide)
      · exact hfactor (by decide)
      · exact hfactor (by decide)
      · exact hfactor (by decide)
    · cases hscope
  · cases hterm
  · cases hterm

end LearnerConfig

/-! ## Recommenders of a configuration -/

/-- Every store that a recommender of a configuration can reach has the sizes
of the configuration and is well sized. -/
theorem LearnerConfig.reached {c : LearnerConfig α} {draws : Draws α} {r : Recommender α}
    (hr : c.recommender draws = .ok r) (actions : List (Action α)) :
    ∃ h shape, c.resolve = .ok h ∧ c.shape h = .ok shape ∧ r.learner = c.learner h ∧
      r.store = .create shape draws ∧ r.target = shape.classCount - 1 ∧
      (r.learner.after actions r.store).shape = shape ∧
      (r.learner.after actions r.store).WellSized := by
  obtain ⟨h, shape, hresolve, hshape, hlearner, hstore, htarget⟩ := recommender_eq_ok hr
  refine ⟨h, shape, hresolve, hshape, hlearner, hstore, htarget, ?_, ?_⟩
  · rw [Learner.shape_after, hstore]
    rfl
  · rw [hstore]
    exact r.learner.wellSized_after actions shape draws

/-- A value that passes the check is learned. -/
theorem LearnerConfig.exists_run_train {c : LearnerConfig α} (htyped : c.Typed) (hsized : c.Sized)
    {draws : Draws α} {r : Recommender α} (hr : c.recommender draws = .ok r)
    (actions : List (Action α)) (user item : Id) {y : Numeral α}
    (hy : ∃ x, Outcome.real y = .ok x)
    (hlabel : r.learner.gradient.checkLabel y
      (r.learner.after actions r.store).shape.classCount = .ok ()) :
    ∃ t, (r.learner.train user item y).run (r.learner.after actions r.store) = (.ok (), t) := by
  obtain ⟨h, shape, hresolve, hshape, hlearner, -, -, hsame, hwell⟩ := reached hr actions
  generalize r.learner.after actions r.store = s at hlabel hsame hwell ⊢
  subst hsame
  rw [hlearner] at hlabel ⊢
  have hok := Learner.train_outcome hwell (hsized.readable hshape) (c.requireScope_learner h)
    (htyped.rated h) rfl (admits_of_integer hresolve hshape htyped.classes)
    (htyped.rates _ (by decide)) hy user item
  exact ⟨_, Store.run_of_outcome (hok.trans hlabel)⟩

/-- A recommender of a typed and sized configuration does not fail in any store
that a run can reach.  Learning is refused exactly where the observed value
is, predictions are always there, and a distribution has one entry for each
class, the target included. -/
theorem recommender_never_fails (c : LearnerConfig α) (htyped : c.Typed) (hsized : c.Sized)
    (draws : Draws α) (r : Recommender α) (hr : c.recommender draws = .ok r)
    (actions : List (Action α)) (user item : Id) :
    let s := r.learner.after actions r.store
    (∀ y, (∃ x, Outcome.real y = .ok x) →
      ((r.learner.train user item y).run s).1 =
        r.learner.gradient.checkLabel y s.shape.classCount) ∧
    (∃ prediction, ((r.learner.predict user item).run s).1 = .ok prediction) ∧
    ∃ distribution, ((r.learner.predictFull user item).run s).1 = .ok distribution ∧
      (distribution.length : Int) = s.shape.classCount ∧
      ∃ x, targetScore distribution r.target = .ok x := by
  intro s
  obtain ⟨h, shape, hresolve, hshape, hlearner, -, htarget, hsame, hwell⟩ :=
    LearnerConfig.reached hr actions
  change s.shape = shape at hsame
  have hadmits : s.shape.Admits h := by
    rw [hsame]
    exact LearnerConfig.admits_of_integer hresolve hshape htyped.classes
  have hreadable : (c.learner h).Readable s.shape := by
    rw [hsame]
    exact hsized.readable hshape
  have hscope := c.requireScope_learner h
  have hrated := htyped.rated h
  rw [hlearner]
  obtain ⟨g, t, scores, -, -, hscores, hcount⟩ :=
    Learner.exists_linearCombination hwell hreadable hscope user item
  obtain ⟨prediction, hprediction, -⟩ := Hypothesis.exists_predict hadmits hcount
  obtain ⟨distribution, hdistribution, hlength⟩ := Hypothesis.exists_predictFull hadmits hcount
  refine ⟨fun y hy => ?_, ⟨prediction, ?_⟩, distribution, ?_, hlength, ?_⟩
  · exact Learner.train_outcome hwell hreadable hscope hrated rfl hadmits
      (htyped.rates _ (by decide)) hy user item
  · rw [Learner.predict, Store.run_bind_of_ok hscores, Store.run_lift]
    exact hprediction
  · rw [Learner.predictFull, Store.run_bind_of_ok hscores, Store.run_lift]
    exact hdistribution
  · have hpos : 0 < s.shape.classCount := by
      rw [Shape.classCount]
      split <;> omega
    have hlast : (distribution.length - 1 : Nat) < distribution.length := by omega
    have htargetCast : r.target = ((distribution.length - 1 : Nat) : Int) := by
      rw [htarget, ← hsame]
      omega
    refine ⟨distribution[distribution.length - 1], ?_⟩
    rw [targetScore, htargetCast, place, place?_natCast hlast, Outcome.bind_ok,
      Outcome.nth_of_lt hlast]

/-- A recommender with side information, after a step. -/
theorem recommender_never_fails_with_sides :
    let c : LearnerConfig Float :=
      (LearnerConfig.default.set .sideInfo (.flag true)).set .itemSideSize (.ofInt 3)
    ∃ r, c.recommender (.ofSource fun _ => 0) = .ok r ∧
      ∃ distribution, ((r.learner.predictFull (.int 1) (.int 7)).run
        (r.learner.after [.train (.int 1) (.int 7) (.real 4)] r.store)).1 = .ok distribution ∧
          (distribution.length : Int) = 1 := by
  intro c
  have hrates : ∀ f ∈ Field.rates, ∃ x, (c.setting f).vectorFactor = .ok x := by
    intro f hf
    simp only [Field.rates, List.mem_cons, List.not_mem_nil, or_false] at hf
    rcases hf with rfl | rfl | rfl | rfl | rfl | rfl | rfl <;> exact ⟨_, rfl⟩
  have hsides : ∀ f ∈ Field.sideSizes, ∃ m : Nat,
      (c.setting f).vectorSize = .ok (m : Int) ∧ (m : Int) < signedLimit := by
    intro f hf
    simp only [Field.sideSizes, List.mem_cons, List.not_mem_nil, or_false] at hf
    rcases hf with rfl | rfl | rfl
    · exact ⟨0, rfl, by decide⟩
    · exact ⟨3, rfl, by decide⟩
    · exact ⟨0, rfl, by decide⟩
  refine ⟨_, rfl, ?_⟩
  obtain ⟨distribution, hdistribution, hlength, -⟩ := (recommender_never_fails c
    ⟨⟨1, rfl⟩, hrates⟩ ⟨⟨150, rfl, by decide⟩, fun _ => hsides⟩ (.ofSource fun _ => 0) _ rfl
    [.train (.int 1) (.int 7) (.real 4)] (.int 1) (.int 7)).2.2
  refine ⟨distribution, hdistribution, ?_⟩
  rw [hlength, Learner.shape_after]
  rfl

/-- Side information of a size that no word with a sign holds has no products, and nothing can
be predicted from it, although all sizes are counts.  Neither can anything be predicted if no
array has the size of the factors. -/
theorem predict_fails_beyond_word :
    let c : LearnerConfig Float :=
      ((LearnerConfig.default.set .sideInfo (.flag true)).set .factorSize (.ofInt 2)).set
        .itemSideSize (.ofInt signedLimit)
    let d : LearnerConfig Float := LearnerConfig.default.set .factorSize (.ofInt (arrayLimit - 3))
    ((∃ n : Nat, (c.setting .factorSize).count = .ok (n : Int)) ∧
      (∀ f ∈ Field.sideSizes, ∃ m : Nat, (c.setting f).vectorSize = .ok (m : Int)) ∧
      ∃ r, c.recommender (.ofSource fun _ => 0) = .ok r ∧
        ((r.learner.predict (.int 1) (.int 7)).run r.store).1 = .error .tooLarge) ∧
    (∃ n : Nat, (d.setting .factorSize).count = .ok (n : Int)) ∧
      ∃ r, d.recommender (.ofSource fun _ => 0) = .ok r ∧
        ((r.learner.predict (.int 1) (.int 7)).run r.store).1 = .error .noSize := by
  intro c d
  refine ⟨⟨⟨2, rfl⟩, ?_, _, rfl, rfl⟩, ⟨(arrayLimit - 3).toNat, rfl⟩, _, rfl, rfl⟩
  intro f hf
  simp only [Field.sideSizes, List.mem_cons, List.not_mem_nil, or_false] at hf
  rcases hf with rfl | rfl | rfl
  · exact ⟨0, rfl⟩
  · exact ⟨signedLimit.toNat, rfl⟩
  · exact ⟨0, rfl⟩

end LatentFactors
