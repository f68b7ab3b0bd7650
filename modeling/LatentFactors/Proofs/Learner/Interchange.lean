import LatentFactors.Proofs.Arithmetic.Rational
import LatentFactors.Proofs.Config
import LatentFactors.Proofs.Learner.Runs
import LatentFactors.Proofs.Vec.Product

/-!
# Dense and sparse side information

Side information can be given as a dense or as a sparse vector with the same entries, and
nothing depends on which.  In exact arithmetic both have the same products, and updates
walk over the same indices in the same order.  So two learners that are given
interchangeable vectors hold the same families, thresholds and draws after every action,
and their answers and faults are the same.

* `Gradient.updateFamily_interchangeable`: one update of parameters.
* `Store.Interchangeable` relates two stores that differ by the kinds of their side
  information only, and every operation leaves such stores.
* `Learner.respond_interchangeable`: every action has the same outcome for both.
-/

namespace LatentFactors

/-! ## Updates -/

namespace Gradient

variable {α : Type} [Scalar α] {g : Gradient α} {y : Numeral α} {parameters : Family α}
  {prediction : List α} {f f' : Vec α}

section Index

variable {index : Int} {penalty : Setting α}

theorem direction_congr (h : f'.get index = f.get index) (err : α) (parameter : Vec α)
    (penalty : Setting α) :
    direction index err f' parameter penalty = direction index err f parameter penalty := by
  rw [direction, direction, h]

omit [Scalar α] in
private theorem zip_replicate_aux (f : Vec α) (parameters : Family α) :
    (List.replicate parameters.length f).zip parameters = parameters.map fun p => (f, p) := by
  rw [List.map_prod_right_eq_zip, List.map_const']

theorem defaultSteps_congr (h : f'.get index = f.get index) :
    g.defaultSteps index y parameters (List.replicate parameters.length f') prediction penalty =
      g.defaultSteps index y parameters (List.replicate parameters.length f) prediction
        penalty := by
  have hfirst (v : Vec α) : (Outcome.nth [v] 0 : Outcome α (Vec α)) = .ok v := rfl
  match parameters with
  | [] => rfl
  | [parameter] =>
    simp only [defaultSteps, List.length_cons, List.length_nil, List.replicate, hfirst,
      Outcome.bind_ok, direction_congr h]
  | _ :: _ :: _ => rfl

theorem softmaxSteps_congr (h : f'.get index = f.get index) :
    g.softmaxSteps index y parameters (List.replicate parameters.length f') prediction penalty =
      g.softmaxSteps index y parameters (List.replicate parameters.length f) prediction
        penalty := by
  simp only [softmaxSteps, zip_replicate_aux, List.zipIdx_map, List.mapM_map, Function.comp_def,
    Prod.map_fst, Prod.map_snd, direction_congr h]

theorem ordinalSteps_congr (h : f'.get index = f.get index) :
    g.ordinalSteps index y parameters (List.replicate parameters.length f') prediction penalty =
      g.ordinalSteps index y parameters (List.replicate parameters.length f) prediction
        penalty := by
  cases parameters with
  | nil => rfl
  | cons p rest =>
    have hfirst (v : Vec α) : (Outcome.nth (List.replicate (p :: rest).length v) 0 :
      Outcome α (Vec α)) = .ok v := rfl
    simp only [ordinalSteps, hfirst, Outcome.bind_ok, h]

/-- The steps for a shared feature depend on its entry at the index only. -/
theorem steps_shared_congr (h : f'.get index = f.get index) :
    g.steps index y parameters (.shared f') prediction penalty =
      g.steps index y parameters (.shared f) prediction penalty := by
  rw [steps, steps, Features.forClasses, Features.forClasses, Outcome.bind_ok, Outcome.bind_ok]
  cases g.rule with
  | default => exact defaultSteps_congr h
  | softmax => exact softmaxSteps_congr h
  | ordinal => exact ordinalSteps_congr h

end Index

/-- An update walks over interchangeable features in the same way. -/
theorem updateFamily_interchangeable [ZeroLaw α] (h : Vec.Interchangeable f f')
    (penalties : Penalties α) (kept : Option Int) :
    g.updateFamily parameters (.shared f') y prediction penalties kept =
      g.updateFamily parameters (.shared f) y prediction penalties kept := by
  have hmatch : findMismatch parameters (Features.shared f').vectors =
      findMismatch parameters (Features.shared f).vectors := by
    rw [findMismatch, findMismatch, Features.vectors, Features.vectors]
    simp only [List.findSome?_cons, h.size]
  have hunion : nonzeroUnion (Features.shared f').vectors =
      nonzeroUnion (Features.shared f).vectors := by
    rw [nonzeroUnion, nonzeroUnion, Features.vectors, Features.vectors, List.forM_eq_forM,
      List.forM_cons, List.forM_cons, h.checkListable_eq, supportUnion, supportUnion,
      List.foldr_cons, List.foldr_cons, h.support_eq]
  have hempty : (Features.shared f').vectors.isEmpty = (Features.shared f).vectors.isEmpty := rfl
  rw [updateFamily, updateFamily, hmatch, hunion, hempty]
  split
  · rfl
  · refine congrArg (ite _ _) ?_
    cases hlist : nonzeroUnion (Features.shared f).vectors with
    | error e => rfl
    | ok is =>
      obtain ⟨-, rfl⟩ := nonzeroUnion_eq_ok_iff.1 hlist
      refine Outcome.foldlM_eq_foldlM (List.forall₂_same.2 fun i hi new => ?_) _
      -- An index outside of a feature would be refused with the fault of its kind.
      obtain ⟨v, hv, hlisted⟩ := mem_supportUnion.1 (List.mem_filter.1 hi).1
      rw [List.mem_singleton.1 hv] at hlisted
      rw [steps_shared_congr (h.get_eq (Vec.nonzero_of_mem_support hlisted).1)]

end Gradient

/-! ## Scores and steps -/

section Exact

variable {K : Type} [ExactScalar K]

namespace Hypothesis

variable {terms terms' : List (Family K × Vec K)}

/-- A score depends on the entries of the side information only. -/
theorem classScore_interchangeable
    (h : List.Forall₂ (fun t t' => t'.1 = t.1 ∧ Vec.Interchangeable t.2 t'.2) terms terms')
    (c : Nat) (v w : Vec K) : classScore c v w terms' = classScore c v w terms := by
  rw [classScore, classScore]
  refine bind_congr fun first =>
    (Outcome.foldlM_eq_foldlM (h.imp fun t t' ht score => ?_) first).symm
  simp only [ht.1, ht.2.dot_eq]

theorem linearCombination_interchangeable (hypothesis : Hypothesis) (cuts : List K)
    (users items : Family K)
    (h : List.Forall₂ (fun t t' => t'.1 = t.1 ∧ Vec.Interchangeable t.2 t'.2) terms terms') :
    hypothesis.linearCombination cuts users items terms' =
      hypothesis.linearCombination cuts users items terms := by
  unfold linearCombination
  simp only [classScore_interchangeable h]

end Hypothesis

/-- The same was gathered, but for the kinds of the side information. -/
def Gathered.Interchangeable : Gathered K → Gathered K → Prop :=
  Gathered.Related (fun cuts cuts' => cuts' = cuts) Vec.Interchangeable

namespace Learner

variable {g g' : Gathered K}

theorem scores_interchangeable (l : Learner K) (h : g.Interchangeable g') :
    l.scores g' = l.scores g := by
  rw [scores, scores, h.cuts, h.users, h.items]
  refine Hypothesis.linearCombination_interchangeable _ _ _ _ ?_
  rw [List.forall₂_map_left_iff, List.forall₂_map_right_iff]
  exact h.terms.imp fun t t' ht => ⟨ht.parameters, ht.feature⟩

theorem improve_interchangeable (l : Learner K) (y : Numeral K) (h : g.Interchangeable g') :
    l.improve y g' = l.improve y g := by
  have hterms (prediction : List K) :
      (g'.terms.mapM fun t => do
        let updated ← l.gradient.updateFamily t.parameters (.shared t.feature) y prediction
          ⟨t.term.penalty, .ofReal 0, []⟩ none
        return (t.term.key, updated)) =
      g.terms.mapM fun t => do
        let updated ← l.gradient.updateFamily t.parameters (.shared t.feature) y prediction
          ⟨t.term.penalty, .ofReal 0, []⟩ none
        return (t.term.key, updated) := by
    refine (Outcome.mapM_eq_mapM (h.terms.imp fun t t' ht => ?_)).symm
    rw [ht.term, ht.parameters, Gradient.updateFamily_interchangeable ht.feature]
  rw [improve, improve, l.scores_interchangeable h, h.cuts, h.users, h.items]
  simp only [hterms]

end Learner

end Exact

/-! ## Stores -/

section Stores

variable {α : Type} [Scalar α]

/-- Two stores that differ by the kinds of their side information only. -/
structure Store.Interchangeable (s s' : Store α) : Prop where
  shape : s'.shape = s.shape
  families : s'.families = s.families
  cuts : s'.cuts = s.cuts
  draws : s'.draws = s.draws
  sides (key : SideKey) :
    Option.Rel Vec.Interchangeable (s.sides.find? key) (s'.sides.find? key)

namespace Store

namespace Interchangeable

variable {s s' : Store α}

theorem refl (s : Store α) : Interchangeable s s := by
  refine ⟨rfl, rfl, rfl, rfl, fun key => ?_⟩
  cases s.sides.find? key with
  | none => exact .none
  | some v => exact .some (.refl v)

/-- Stores stay interchangeable if the same is stored in both besides the side
information. -/
theorem update (h : Interchangeable s s') {families families' : Table FamilyKey (Family α)}
    {cuts cuts' : List α} {draws draws' : Draws α} (hfamilies : families' = families)
    (hcuts : cuts' = cuts) (hdraws : draws' = draws) :
    Interchangeable { s with families, cuts, draws }
      { s' with families := families', cuts := cuts', draws := draws' } :=
  ⟨h.shape, hfamilies, hcuts, hdraws, h.sides⟩

theorem accept (h : Interchangeable s s') (user item : Id) (new : Improved α) :
    Interchangeable (s.accept user item new) (s'.accept user item new) := by
  refine h.update ?_ rfl h.draws
  show List.foldl _ s'.families _ = List.foldl _ s.families _
  rw [h.families]

/-- Side information that was never given reads as zeros in both. -/
theorem side_agree (h : Interchangeable s s') (key : SideKey) :
    Outcome.Agree Vec.Interchangeable (s.side key) (s'.side key) := by
  have hsides := h.sides key
  rw [side, side, h.shape]
  generalize s.sides.find? key = found at hsides ⊢
  generalize s'.sides.find? key = found' at hsides ⊢
  cases hsides with
  | some hv => exact .ok hv
  | none =>
    refine (Outcome.Agree.of_eq rfl).imp ?_
    rintro v _ rfl
    exact .refl v

end Interchangeable

theorem family_interchangeable (kind : FamilyKind) (owner : Id) :
    Couples Interchangeable Eq (family (α := α) kind owner) (family kind owner) := by
  have hfresh : Couples Interchangeable Eq (freshFamily (α := α) kind) (freshFamily kind) :=
    freshFamily_couples_of (fun _ _ hs => ⟨hs.shape, hs.draws⟩)
      (fun _ _ _ hs => hs.update hs.families hs.cuts rfl) kind
  refine family_couples_of (fun _ _ hs => by rw [hs.families]) (fun s s' hs _ => hfresh s s' hs) ?_
  exact fun _ _ vectors hs =>
    hs.update (congrArg (·.insert ⟨kind, owner⟩ vectors) hs.families) hs.cuts hs.draws

theorem touch_interchangeable (kind : FamilyKind) (owner : Id) :
    Couples Interchangeable Eq (touch (α := α) kind owner) (touch kind owner) :=
  .bind (family_interchangeable kind owner) fun _ _ _ => .pure rfl

/-- Vectors of one size are given or refused alike. -/
theorem setSide_interchangeable (key : SideKey) {v w : Vec α} (h : Vec.Interchangeable v w) :
    Couples Interchangeable Eq (setSide key v) (setSide key w) := by
  intro s s' hs
  have hsize : s'.shape.sideSize key.owner = s.shape.sideSize key.owner := by rw [hs.shape]
  rw [run_setSide, run_setSide, hsize, h.size]
  split
  · refine ⟨.ok rfl, hs.shape, hs.families, hs.cuts, hs.draws, fun k => ?_⟩
    rw [Table.find?_insert, Table.find?_insert]
    split
    · exact .some h
    · exact hs.sides k
  · exact ⟨.error _, hs⟩

theorem removeSide_interchangeable (key : SideKey) :
    Couples Interchangeable Eq (removeSide (α := α) key) (removeSide key) := by
  refine .modify fun s s' hs => ⟨hs.shape, hs.families, hs.cuts, hs.draws, fun k => ?_⟩
  rw [Table.find?_erase, Table.find?_erase]
  split
  · exact .none
  · exact hs.sides k

end Store

/-- The same action, or side information of another kind with the same entries. -/
inductive Action.Interchangeable : Action α → Action α → Prop where
  | same (action : Action α) : Interchangeable action action
  | setSide (key : SideKey) {v w : Vec α} (h : Vec.Interchangeable v w) :
    Interchangeable (.setSide key v) (.setSide key w)

end Stores

/-! ## Runs -/

section ExactRuns

variable {K : Type} [ExactScalar K]

namespace Learner

theorem gather_interchangeable (l : Learner K) (user item : Id) :
    Store.Couples Store.Interchangeable Gathered.Interchangeable (l.gather user item)
      (l.gather user item) :=
  couples_gather (fun key _ => Store.family_interchangeable key.kind key.owner)
    (fun _ _ hs term _ => hs.side_agree term.feature) fun _ _ hs => hs.cuts

theorem linearCombination_interchangeable (l : Learner K) (user item : Id) :
    Store.Couples Store.Interchangeable Eq (l.linearCombination user item)
      (l.linearCombination user item) :=
  couples_linearCombination rfl (l.gather_interchangeable user item) fun _ _ hg =>
    l.scores_interchangeable hg

theorem train_interchangeable (l : Learner K) (user item : Id) (y : Numeral K) :
    Store.Couples Store.Interchangeable Eq (l.train user item y) (l.train user item y) := by
  intro s s' hs
  refine train_agree_of hs (by rw [hs.shape]) (l.gather_interchangeable user item) (P := Eq)
    (fun g g' hg => .of_eq (l.improve_interchangeable y hg)) (fun _ _ ht => ht) ?_
  rintro t t' new _ ht rfl
  exact ht.accept user item new

/-- Every action has the same outcome for interchangeable side information, and leaves
interchangeable stores. -/
theorem respond_interchangeable (l : Learner K) {action action' : Action K}
    (h : action.Interchangeable action') :
    Store.Couples Store.Interchangeable Eq (l.respond action) (l.respond action') := by
  cases h with
  | setSide key h => exact .bind (Store.setSide_interchangeable key h) fun _ _ _ => .pure rfl
  | same action =>
    cases action with
    | touchUser user =>
      exact .bind (Store.touch_interchangeable .userFactors user) fun _ _ _ => .pure rfl
    | touchItem item =>
      exact .bind (Store.touch_interchangeable .itemFactors item) fun _ _ _ => .pure rfl
    | setSide key v =>
      exact .bind (Store.setSide_interchangeable key (.refl v)) fun _ _ _ => .pure rfl
    | removePair user item =>
      exact .bind (Store.removeSide_interchangeable _) fun _ _ _ => .pure rfl
    | train user item y =>
      exact .bind (l.train_interchangeable user item y) fun _ _ _ => .pure rfl
    | predict user item =>
      exact couples_predict rfl (l.linearCombination_interchangeable user item)
    | predictFull user item =>
      exact couples_predictFull rfl (l.linearCombination_interchangeable user item)

/-- After any actions with interchangeable side information, the stores are
interchangeable. -/
theorem after_interchangeable (l : Learner K) {actions actions' : List (Action K)}
    (h : List.Forall₂ Action.Interchangeable actions actions') {s s' : Store K}
    (hs : s.Interchangeable s') :
    (l.after actions s).Interchangeable (l.after actions' s') := by
  induction h generalizing s s' with
  | nil => exact hs
  | cons hfirst _ ih =>
    rw [after_cons, after_cons, ← snd_run_respond, ← snd_run_respond]
    exact ih (l.respond_interchangeable hfirst s s' hs).2

end Learner

end ExactRuns

/-- A learner that is given interchangeable vectors as side information in two runs, for
instance a dense one here and a sparse one there.  After each run it holds the same
families, thresholds and draws, and the same entries of side information in every place,
and whatever it does next has the same outcome. -/
theorem dense_and_sparse_sides_interchange {K : Type} [ExactScalar K] (l : Learner K)
    (start : Store K) {actions actions' : List (Action K)}
    (h : List.Forall₂ Action.Interchangeable actions actions') :
    let s := l.after actions start
    let s' := l.after actions' start
    s'.families = s.families ∧ s'.cuts = s.cuts ∧ s'.draws = s.draws ∧
      (∀ key, Option.Rel Vec.Interchangeable (s.sides.find? key) (s'.sides.find? key)) ∧
      ∀ next next' : Action K, next.Interchangeable next' →
        ((l.respond next').run s').1 = ((l.respond next).run s).1 := by
  intro s s'
  have hs : s.Interchangeable s' := l.after_interchangeable h (.refl start)
  refine ⟨hs.families, hs.cuts, hs.draws, hs.sides, fun next next' hnext => ?_⟩
  exact (l.respond_interchangeable hnext s s' hs).1.eq

/-- A zero in front, which a sparse vector does not store, and a step. -/
theorem dense_and_sparse_sides_interchange_rational :
    let c : LearnerConfig ℚ :=
      (LearnerConfig.default.set .sideInfo (.flag true)).set .itemSideSize (.ofInt 2)
    let dense : Vec ℚ := .dense #[0, 3]
    let sparse : Vec ℚ := .sparse ((SparseVec.zero 2).set 1 3 Nat.one_lt_two)
    let actions (v : Vec ℚ) : List (Action ℚ) :=
      [.setSide (.item (.int 7)) v, .train (.int 1) (.int 7) (.real 4)]
    ∃ r, c.recommender (.ofSource fun _ => 0) = .ok r ∧
      (r.learner.after (actions sparse) r.store).families =
        (r.learner.after (actions dense) r.store).families ∧
      ((r.learner.respond (.predict (.int 1) (.int 7))).run
          (r.learner.after (actions sparse) r.store)).1 =
        ((r.learner.respond (.predict (.int 1) (.int 7))).run
          (r.learner.after (actions dense) r.store)).1 := by
  intro c dense sparse actions
  have hvectors : Vec.Interchangeable dense sparse := by
    refine ⟨rfl, fun i hi => ?_, .inr (by decide)⟩
    match i, hi with
    | 0, _ => rfl
    | 1, _ => rfl
  have hactions : List.Forall₂ Action.Interchangeable (actions dense) (actions sparse) :=
    .cons (.setSide _ hvectors) (.cons (.same _) .nil)
  refine ⟨_, rfl, ?_⟩
  obtain ⟨hfamilies, -, -, -, hnext⟩ :=
    dense_and_sparse_sides_interchange _ (Store.create _ _) hactions
  exact ⟨hfamilies, hnext _ _ (.same _)⟩

end LatentFactors
