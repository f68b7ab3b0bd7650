import LatentFactors.Proofs.Arithmetic.Rational
import LatentFactors.Proofs.Learner.Equivalent
import LatentFactors.Proofs.Learner.Progress

/-!
# Learning without side information

A learner of side information that never gets any behaves as one that learns
factors only.  It reads zero vectors and keeps zero parameters for them.  The
products of zeros add nothing to a score, and a step moves parameters only where
the side information is nonzero, so it writes the zeros back.

* `Store.Unsided shape s s'` relates the stores of the two learners: they cannot be
  told apart, no side information was given and all parameters of it are zeros.
* `Learner.gather_unsided`: the learners gather the same, except for side terms
  with nothing but zeros.
* `Learner.respond_unsided`: every action but the giving of side information has
  the same outcome for both, and leaves such stores.

The sizes have to be counts that a word with a sign holds.  Larger vectors of zeros
can be made, but neither multiplied nor walked (`side_learner_fails_beyond_word`).
-/

namespace LatentFactors

section Blank

variable {α : Type} [Scalar α]

/-- What a learner of factors shares with a learner of side information. -/
def Learner.withoutSides (l : Learner α) : Learner α := { l with scope := .factors }

/-- Zero parameters for a side term, with zero side information. -/
def SideTerm.blank (count : Nat) (size : SideOwner → Nat) (term : SideTerm α) :
    GatheredTerm α :=
  ⟨term, List.replicate count (.sparse (.zero (size term.feature.owner))),
    .sparse (.zero (size term.feature.owner))⟩

/-- What was gathered without side information, with blank side terms. -/
def Gathered.withBlanks (g : Gathered α) (count : Nat) (size : SideOwner → Nat)
    (terms : List (SideTerm α)) : Gathered α :=
  { g with terms := terms.map (SideTerm.blank count size) }

/-- Zero side information that can be listed moves nothing. -/
theorem Gradient.updateFamily_zeros (g : Gradient α) (count : Nat) {size : Nat}
    (hlimit : (size : Int) < signedLimit) (y : Numeral α) (prediction : List α)
    (penalties : Penalties α) (kept : Option Int) :
    g.updateFamily (List.replicate count (.sparse (.zero size))) (.shared (.sparse (.zero size)))
      y prediction penalties kept = .ok (List.replicate count (.sparse (.zero size))) := by
  have hone : ∀ f ∈ (Features.shared (.sparse (.zero size)) : Features α).vectors,
      f = .sparse (.zero size) := fun f hf => List.mem_singleton.1 hf
  have hwalk : (Features.shared (.sparse (.zero size)) : Features α).walked kept = [] := by
    refine List.eq_nil_iff_forall_not_mem.2 fun i hi => ?_
    obtain ⟨⟨f, hf, hlisted⟩, -⟩ := Features.mem_walked.1 hi
    rw [hone f hf] at hlisted
    cases hlisted
  rw [g.updateFamily_eq_walk, hwalk]
  · rfl
  · intro p hp f hf
    rw [(List.mem_replicate.1 hp).2, hone f hf]
  · exact List.cons_ne_nil _ _
  · intro f hf
    rw [hone f hf]
    exact Vec.isListable_of_lt hlimit

end Blank

/-! ## Scores and steps -/

section Exact

variable {K : Type} [ExactScalar K] {count : Nat} {size : SideOwner → Nat}

/-- Blank side terms add nothing to a score. -/
theorem Hypothesis.classScore_blank (hlimit : ∀ owner, (size owner : Int) < signedLimit)
    (terms : List (SideTerm K)) {c : Nat} (hc : c < count) (v w : Vec K) :
    classScore c v w ((terms.map (SideTerm.blank count size)).map
      fun t => (t.parameters, t.feature)) = classScore c v w [] := by
  rw [classScore, classScore]
  cases v.dot w with
  | error e => rfl
  | ok score =>
    rw [Outcome.bind_ok, Outcome.bind_ok]
    induction terms with
    | nil => rfl
    | cons term rest ih =>
      rw [List.map_cons, List.map_cons, List.foldlM_cons]
      have hzero : Outcome.nth (SideTerm.blank count size term).parameters c =
          (Except.ok (.sparse (.zero (size term.feature.owner))) : Outcome K (Vec K)) := by
        rw [Outcome.nth_eq_ok_iff, SideTerm.blank, List.getElem?_replicate, if_pos hc]
      have hdot : (Vec.sparse (.zero (size term.feature.owner)) : Vec K).dot
          (SideTerm.blank count size term).feature = .ok 0 := by
        have hlistable : (Vec.sparse (.zero (size term.feature.owner)) : Vec K).IsListable :=
          fun _ => hlimit term.feature.owner
        rw [SideTerm.blank, Vec.dot, if_neg (not_not.2 rfl), Vec.walk_of_isListable hlistable]
        rfl
      rw [hzero, Outcome.bind_ok, hdot, Outcome.bind_ok, add_zero]
      exact ih

namespace Learner

variable {g : Gathered K}

/-- Blank side terms do not change the scores. -/
theorem scores_blank (l : Learner K) (hlimit : ∀ owner, (size owner : Int) < signedLimit)
    (hpos : 0 < count) (husers : g.users.length = count) (hnone : g.terms = [])
    (terms : List (SideTerm K)) :
    l.scores (g.withBlanks count size terms) = l.withoutSides.scores g := by
  have hscore {c : Nat} (hc : c < count) (v w : Vec K) :
      Hypothesis.classScore c v w ((terms.map (SideTerm.blank count size)).map
        fun t => (t.parameters, t.feature)) = Hypothesis.classScore c v w [] :=
    Hypothesis.classScore_blank hlimit terms hc v w
  rw [scores, scores, hnone]
  show l.hypothesis.linearCombination g.cuts g.users g.items _ =
    l.hypothesis.linearCombination g.cuts g.users g.items []
  cases l.hypothesis with
  | ordinal =>
    unfold Hypothesis.linearCombination
    simp only [Gathered.withBlanks, hscore hpos]
  | ols | logistic | softmax | poisson =>
    unfold Hypothesis.linearCombination
    refine congrArg (ite _ _) (Outcome.mapM_congr fun e he => ?_)
    obtain ⟨hv, -⟩ := List.getElem?_zip_eq_some.1 (List.mem_zipIdx_iff_getElem?.1 he)
    refine hscore ?_ _ _
    rw [← husers]
    exact (List.getElem?_eq_some_iff.1 hv).1

/-- A step with blank side terms writes the zeros back, and otherwise what it
writes without them. -/
theorem improve_blank (l : Learner K) (y : Numeral K)
    (hlimit : ∀ owner, (size owner : Int) < signedLimit) (hpos : 0 < count)
    (husers : g.users.length = count) (hnone : g.terms = []) (terms : List (SideTerm K)) :
    l.improve y (g.withBlanks count size terms) = (l.withoutSides.improve y g).map fun new =>
      { new with terms := terms.map fun term =>
          (term.key, (SideTerm.blank count size term).parameters) } := by
  have hterms (prediction : List K) :
      ((g.withBlanks count size terms).terms.mapM fun t => do
        let updated ← l.gradient.updateFamily t.parameters (.shared t.feature) y prediction
          ⟨t.term.penalty, .ofReal 0, []⟩ none
        return (t.term.key, updated)) =
      Except.ok (terms.map fun term =>
        (term.key, (SideTerm.blank count size term).parameters)) := by
    show (terms.map (SideTerm.blank count size)).mapM _ = _
    rw [Outcome.mapM_eq_ok_iff, List.forall₂_map_left_iff, List.forall₂_map_right_iff,
      List.forall₂_same]
    intro term _
    refine Outcome.bind_eq_ok.2 ⟨_, l.gradient.updateFamily_zeros count (hlimit _) .., rfl⟩
  rw [improve, improve, scores_blank l hlimit hpos husers hnone]
  simp only [hterms, hnone, Outcome.map_bind]
  rfl

end Learner

end Exact

/-! ## Stores without side information -/

section Runs

variable {α : Type} [Scalar α] {size : SideOwner → Nat} {shape : Shape α}

/-- Counts of side information that a word holds. -/
def Shape.SideSizes (shape : Shape α) (size : SideOwner → Nat) : Prop :=
  ∀ owner, (shape.sideSize owner).vectorSize = .ok (size owner : Int) ∧
    (size owner : Int) < signedLimit

theorem Shape.SideSizes.zeros_eq (h : shape.SideSizes size) (owner : SideOwner) :
    shape.zeros owner =
      .ok (List.replicate shape.vectorCount (.sparse (.zero (size owner)))) := by
  rw [zeros, (h owner).1, Outcome.bind_ok, Vec.sparseZero_natCast]
  rfl

/-- Two stores that cannot be told apart, without side information and with
nothing but zero parameters for it. -/
structure Store.Unsided (shape : Shape α) (s s' : Store α) : Prop where
  equivalent : s.Equivalent s'
  sides : s.sides = .empty
  readings (key : FamilyKey) (owner : SideOwner) (h : key.kind.role = .parameters owner) :
    s.reading key = shape.zeros owner
  shape : s.shape = shape

theorem Store.family_unsided (kind : FamilyKind) (owner : Id) :
    Couples (Unsided shape) Eq (family (α := α) kind owner) (family kind owner) := by
  intro s s' h
  obtain ⟨hagree, hafter⟩ := family_equivalent kind owner s s' h.equivalent
  have hsame := family_sameReadings kind owner s
  have hconcerns : FamilyKey.Concerns ⟨kind, owner⟩ owner owner := (ite_self owner).symm
  refine ⟨hagree, hafter, (family_moves hconcerns s).sides.trans h.sides,
    fun key side hrole => ?_, hsame.shape.trans h.shape⟩
  exact (hsame.readings key side hrole).trans (h.readings key side hrole)

theorem Store.Unsided.of_left {s s' t : Store α} (h : Unsided shape s s') (ht : s.Equivalent t) :
    Unsided shape t s' :=
  ⟨ht.symm.trans h.equivalent, ht.sides.trans h.sides,
    fun key owner hrole => (ht.readings key owner hrole).trans (h.readings key owner hrole),
    ht.shape.trans h.shape⟩

/-- Side information that was never given reads as zeros. -/
theorem Store.Unsided.side_eq (hsizes : shape.SideSizes size) {s s' : Store α}
    (h : Unsided shape s s') (key : SideKey) :
    s.side key = .ok (.sparse (.zero (size key.owner))) := by
  rw [side, h.sides, h.shape]
  show (shape.sideSize key.owner).vectorSize >>= Vec.sparseZero = _
  rw [(hsizes key.owner).1, Outcome.bind_ok, Vec.sparseZero_natCast]

/-- Reading zero parameters on one side only. -/
theorem Store.Unsided.readTerm (hsizes : shape.SideSizes size) {s s' : Store α}
    (h : Unsided shape s s') {term : SideTerm α}
    (hrole : term.key.kind.role = .parameters term.feature.owner) :
    ∃ t, (Learner.readTerm (term, .sparse (.zero (size term.feature.owner)))).run s =
      (.ok (SideTerm.blank shape.vectorCount size term), t) ∧ Unsided shape t s' := by
  have hreading : s.reading term.key =
      .ok (List.replicate shape.vectorCount (.sparse (.zero (size term.feature.owner)))) :=
    (h.readings term.key _ hrole).trans (hsizes.zeros_eq _)
  have hrun := run_of_outcome hreading
  have hmoves : s.Equivalent ((family term.key.kind term.key.owner).run s).2 :=
    parameters_move_equivalent hrole term.key.owner s
  refine ⟨_, ?_, h.of_left hmoves⟩
  rw [Learner.readTerm, run_bind_of_ok hrun]
  rfl

/-- Zero parameters can be written on one side only. -/
theorem Store.Unsided.withZeros (hsizes : shape.SideSizes size) {s' : Store α}
    {terms : List (SideTerm α)} (hterms : ∀ term ∈ terms,
      term.key.kind.role = .parameters term.feature.owner) :
    ∀ s : Store α, Unsided shape s s' →
      Unsided shape (s.withFamilies (terms.map fun term =>
        (term.key, (SideTerm.blank shape.vectorCount size term).parameters))) s' := by
  induction terms with
  | nil => exact fun s h => h
  | cons term rest ih =>
    intro s h
    have hrole := hterms term List.mem_cons_self
    have hwritten := Equivalent.insert_reading hrole
      ((h.readings term.key _ hrole).trans (hsizes.zeros_eq _))
    exact ih (fun t ht => hterms t (List.mem_cons_of_mem term ht)) _ (h.of_left hwritten)

theorem Store.Unsided.insert_factors {s s' : Store α} (h : Unsided shape s s') (kind : FamilyKind)
    {intercept : Nat} (hrole : kind.role = .factors intercept) (owner : Id) (family : Family α) :
    Unsided shape { s with families := s.families.insert ⟨kind, owner⟩ family }
      { s' with families := s'.families.insert ⟨kind, owner⟩ family } := by
  refine ⟨h.equivalent.insert ⟨kind, owner⟩ family, h.sides, fun key side hkey => ?_, h.shape⟩
  have hother : ¬ ((⟨kind, owner⟩ : FamilyKey) == key) = true := by
    intro hsame
    have hkind : kind = key.kind := (FamilyKey.beq_iff.1 hsame).1
    rw [hkind, hkey] at hrole
    cases hrole
  rw [reading_insert s ⟨kind, owner⟩ family hkey, if_neg hother]
  exact h.readings key side hkey

/-- Factors and thresholds are written on both sides, and zero parameters on
one. -/
theorem Store.Unsided.accept (hsizes : shape.SideSizes size) {s s' : Store α}
    (h : Unsided shape s s') (user item : Id) (new : Improved α) (hnone : new.terms = [])
    {terms : List (SideTerm α)} (hterms : ∀ term ∈ terms,
      term.key.kind.role = .parameters term.feature.owner) :
    Unsided shape (s.accept user item { new with terms := terms.map fun term =>
        (term.key, (SideTerm.blank shape.vectorCount size term).parameters) })
      (s'.accept user item new) := by
  have hcuts : Unsided shape { s with cuts := new.cuts } { s' with cuts := new.cuts } := by
    refine ⟨h.equivalent.update h.equivalent.sides rfl h.equivalent.draws, h.sides,
      fun key owner hrole => ?_, h.shape⟩
    have hreading := h.readings key owner hrole
    rw [reading_of_parameters hrole] at hreading ⊢
    exact hreading
  have husers := hcuts.insert_factors .userFactors rfl user new.users
  have hfactors := husers.insert_factors .itemFactors rfl item new.items
  rw [Store.accept, Store.accept, Improved.families, Improved.families, hnone]
  exact Store.Unsided.withZeros hsizes hterms _ hfactors

theorem Store.removeSide_unsided (key : SideKey) :
    Couples (Unsided shape) Eq (removeSide (α := α) key) (removeSide key) := by
  refine .modify fun s s' h => ?_
  have hsides : s.sides.erase key = .empty := by
    rw [h.sides]
    rfl
  refine ⟨h.equivalent.update (congrArg (·.erase key) h.equivalent.sides) h.equivalent.cuts
    h.equivalent.draws, hsides, fun k owner hrole => ?_, h.shape⟩
  have hreading := h.readings k owner hrole
  rw [reading_of_parameters hrole] at hreading ⊢
  exact hreading

namespace Learner

/-! ## Gathering -/

/-- Without side information both learners gather the same, except for blank side
terms. -/
theorem gather_unsided (l : Learner α) (hsizes : shape.SideSizes size) (user item : Id) :
    Store.Couples (Store.Unsided shape)
      (fun g g' => g'.terms = [] ∧
        g = g'.withBlanks shape.vectorCount size (l.sideTerms user item))
      (l.gather user item) (l.withoutSides.gather user item) := by
  refine .bind (Store.family_unsided .userFactors user) ?_
  rintro users _ rfl
  refine .bind (Store.family_unsided .itemFactors item) ?_
  rintro items _ rfl
  intro s s' h
  have hfeatures : l.features user item s =
      .ok ((l.sideTerms user item).map fun term =>
        (term, (.sparse (.zero (size term.feature.owner)) : Vec α))) := by
    refine features_eq_ok_iff.2 ⟨by simp [Function.comp_def], fun pair hpair => ?_⟩
    obtain ⟨term, -, rfl⟩ := List.mem_map.1 hpair
    exact h.side_eq hsizes term.feature
  obtain ⟨t, hterms, ht⟩ : ∃ t, (((l.sideTerms user item).map fun term =>
      (term, (.sparse (.zero (size term.feature.owner)) : Vec α))).mapM readTerm).run s =
        (.ok ((l.sideTerms user item).map (SideTerm.blank shape.vectorCount size)), t) ∧
          Store.Unsided shape t s' := by
    refine Stateful.exists_run_mapM_of_forall₂ (I := fun t => Store.Unsided shape t s') ?_ h
    rw [List.forall₂_map_left_iff, List.forall₂_map_right_iff, List.forall₂_same]
    exact fun term hterm t ht => ht.readTerm hsizes (sideTerms_spec hterm).2.1
  have hleft : (do
      let terms ← (← Store.lift (l.features user item s)).mapM readTerm
      return ⟨s.cuts, users, items, terms⟩ : StoreM α (Gathered α)).run s =
        (.ok ⟨s.cuts, users, items,
          (l.sideTerms user item).map (SideTerm.blank shape.vectorCount size)⟩, t) := by
    rw [hfeatures, Store.run_bind_of_ok (Store.run_lift _ s), Store.run_bind_of_ok hterms]
    rfl
  refine Stateful.Couples.of_runs hleft rfl ⟨rfl, ?_⟩ ht
  rw [← h.equivalent.cuts]
  rfl

end Learner

end Runs

/-! ## Runs -/

section Actions

variable {α : Type}

/-- Whether an action gives side information. -/
def Action.givesSide : Action α → Bool
  | .setSide _ _ => true
  | .touchUser _ | .touchItem _ | .removePair _ _ | .train _ _ _ | .predict _ _
    | .predictFull _ _ => false

variable [Scalar α]

/-- A well sized store of a shape. -/
def Store.SizedAs (shape : Shape α) (s : Store α) : Prop := s.shape = shape ∧ s.WellSized

theorem Learner.perform_sizedAs (l : Learner α) (action : Action α) {shape : Shape α}
    {s : Store α} (h : s.SizedAs shape) : ((l.perform action).run s).2.SizedAs shape :=
  ⟨(l.change_perform action s).shape_eq.trans h.1, (l.change_perform action s).wellSized h.2⟩

end Actions

section ExactRuns

variable {K : Type} [ExactScalar K] {size : SideOwner → Nat} {shape : Shape K}

/-- Stores of learners with and without side information that go on alike. -/
def Store.Simulates (shape : Shape K) (s s' : Store K) : Prop :=
  Unsided shape s s' ∧ s'.SizedAs shape

namespace Learner

theorem gather_simulates (l : Learner K) (hsizes : shape.SideSizes size) (user item : Id) :
    Store.Couples (Store.Simulates shape)
      (fun g g' => (g'.terms = [] ∧
        g = g'.withBlanks shape.vectorCount size (l.sideTerms user item)) ∧
          g'.users.length = shape.vectorCount)
      (l.gather user item) (l.withoutSides.gather user item) := by
  refine (l.gather_unsided hsizes user item).with_right (fun s hs => ?_) fun s g t hs hrun => ?_
  · have hgrows := gather_moves l.withoutSides user item s
    exact ⟨hgrows.shape.trans hs.1, hgrows.wellSized hs.2⟩
  · rw [← hs.1]
    exact (fits_of_run hs.2 hrun).users

theorem linearCombination_simulates (l : Learner K) (hsizes : shape.SideSizes size)
    (hscope : l.requireScope = .ok ()) (user item : Id) :
    Store.Couples (Store.Simulates shape) Eq (l.linearCombination user item)
      (l.withoutSides.linearCombination user item) := by
  refine couples_linearCombination hscope.symm (l.gather_simulates hsizes user item) ?_
  rintro _ g ⟨⟨hnone, rfl⟩, husers⟩
  exact (l.scores_blank (fun owner => (hsizes owner).2) shape.vectorCount_pos husers hnone _).symm

theorem predict_simulates (l : Learner K) (hsizes : shape.SideSizes size)
    (hscope : l.requireScope = .ok ()) (user item : Id) :
    Store.Couples (Store.Simulates shape) Eq (l.predict user item)
      (l.withoutSides.predict user item) :=
  couples_predict rfl (l.linearCombination_simulates hsizes hscope user item)

theorem predictFull_simulates (l : Learner K) (hsizes : shape.SideSizes size)
    (hscope : l.requireScope = .ok ()) (user item : Id) :
    Store.Couples (Store.Simulates shape) Eq (l.predictFull user item)
      (l.withoutSides.predictFull user item) :=
  couples_predictFull rfl (l.linearCombination_simulates hsizes hscope user item)

/-- Both learners refuse the same steps, and after a step their stores still go on
alike. -/
theorem train_unsided (l : Learner K) (hsizes : shape.SideSizes size)
    (hscope : l.requireScope = .ok ()) (user item : Id) (y : Numeral K) {s s' : Store K}
    (h : Store.Simulates shape s s') :
    Outcome.Agree Eq ((l.train user item y).run s).1 ((l.withoutSides.train user item y).run s').1 ∧
      Store.Unsided shape ((l.train user item y).run s).2
        ((l.withoutSides.train user item y).run s').2 := by
  have hchecks : (l.withoutSides.requireScope >>= fun _ =>
      l.withoutSides.gradient.checkLabel y s'.shape.classCount) =
        l.requireScope >>= fun _ => l.gradient.checkLabel y s.shape.classCount := by
    rw [hscope, h.1.shape, h.2.1]
    rfl
  refine train_agree_of h hchecks (l.gather_simulates hsizes user item)
    (P := fun new new' => new'.terms = [] ∧
      new = { new' with terms := (l.sideTerms user item).map fun term =>
        (term.key, (SideTerm.blank shape.vectorCount size term).parameters) })
    ?_ (fun _ _ ht => ht.1) ?_
  · rintro _ g ⟨⟨hnone, rfl⟩, husers⟩
    rw [l.improve_blank y (fun owner => (hsizes owner).2) shape.vectorCount_pos husers hnone]
    cases himprove : l.withoutSides.improve y g with
    | error e => exact .error e
    | ok new =>
      obtain ⟨_, _, himproves⟩ := improve_eq_ok himprove
      have hterms := himproves.terms
      rw [hnone] at hterms
      exact .ok ⟨List.forall₂_nil_left_iff.1 hterms, rfl⟩
  · rintro t t' _ new ht ⟨hnone, rfl⟩
    exact ht.1.accept hsizes user item new hnone fun term hterm => (sideTerms_spec hterm).2.1

/-- Every action but the giving of side information has the same outcome for both
learners, and leaves stores that go on alike. -/
theorem perform_simulates (l : Learner K) (hsizes : shape.SideSizes size)
    (hscope : l.requireScope = .ok ()) {action : Action K} (hgives : action.givesSide = false) :
    Store.Couples (Store.Simulates shape) Eq (l.perform action)
      (l.withoutSides.perform action) := by
  have hkept (s : Store K) (hs : s.SizedAs shape) := l.withoutSides.perform_sizedAs action hs
  have hwith (h : Store.Couples (Store.Unsided shape) Eq (l.perform action)
      (l.withoutSides.perform action)) :
      Store.Couples (Store.Simulates shape) Eq (l.perform action)
        (l.withoutSides.perform action) :=
    (h.with_right (P := fun _ => True) hkept fun _ _ _ _ _ => trivial).imp fun _ _ hQ => hQ.1
  cases action with
  | setSide key v => cases hgives
  | touchUser user =>
    exact hwith (.bind (Store.family_unsided .userFactors user) fun _ _ _ => .pure rfl)
  | touchItem item =>
    exact hwith (.bind (Store.family_unsided .itemFactors item) fun _ _ _ => .pure rfl)
  | removePair user item => exact hwith (Store.removeSide_unsided _)
  | train user item y =>
    intro s s' hs
    obtain ⟨hagree, hafter⟩ := l.train_unsided hsizes hscope user item y hs
    exact ⟨hagree, hafter, hkept s' hs.2⟩
  | predict user item =>
    exact .bind (l.predict_simulates hsizes hscope user item) fun _ _ _ => .pure rfl
  | predictFull user item =>
    exact .bind (l.predictFull_simulates hsizes hscope user item) fun _ _ _ => .pure rfl

theorem respond_simulates (l : Learner K) (hsizes : shape.SideSizes size)
    (hscope : l.requireScope = .ok ()) {action : Action K} (hgives : action.givesSide = false) :
    Store.Couples (Store.Simulates shape) Eq (l.respond action)
      (l.withoutSides.respond action) := by
  have hperform := l.perform_simulates hsizes hscope hgives
  cases action with
  | predict user item => exact l.predict_simulates hsizes hscope user item
  | predictFull user item => exact l.predictFull_simulates hsizes hscope user item
  | touchUser _ | touchItem _ | setSide _ _ | removePair _ _ | train _ _ _ =>
    exact .bind hperform fun _ _ _ => .pure rfl

/-- After any actions that give no side information, the stores go on alike. -/
theorem after_simulates (l : Learner K) (hsizes : shape.SideSizes size)
    (hscope : l.requireScope = .ok ()) {actions : List (Action K)}
    (hgives : ∀ action ∈ actions, action.givesSide = false) {s s' : Store K}
    (h : Store.Simulates shape s s') :
    Store.Simulates shape (l.after actions s) (l.withoutSides.after actions s') := by
  induction actions generalizing s s' with
  | nil => exact h
  | cons action later ih =>
    rw [after_cons, after_cons]
    have hfirst : action.givesSide = false := hgives action List.mem_cons_self
    refine ih (fun a ha => hgives a (List.mem_cons_of_mem action ha)) ?_
    exact (l.perform_simulates hsizes hscope hfirst s s' h).2

end Learner

theorem Store.create_simulates (shape : Shape K) (draws : Draws K) :
    Simulates shape (create shape draws) (create shape draws) := by
  refine ⟨⟨.refl _, rfl, fun key owner hrole => ?_, rfl⟩, rfl, wellSized_create shape draws⟩
  rw [reading_of_parameters hrole]
  rfl

end ExactRuns

/-! ## Configurations -/

namespace LearnerConfig

variable {α : Type} [Scalar α] {c : LearnerConfig α} {h : Hypothesis} {shape : Shape α}

/-- Whether a configuration is accepted, and with which sizes, does not depend on
the use of side information. -/
theorem recommender_of_sideInfo (hresolve : c.resolve = .ok h) (hshape : c.shape h = .ok shape)
    (draws : Draws α) (s : Setting α) :
    ∃ r, (c.set .sideInfo s).recommender draws = .ok r ∧
      r.learner = (c.set .sideInfo s).learner h ∧ r.store = .create shape draws := by
  have hresolve' : (c.set .sideInfo s).resolve = .ok h := hresolve
  have hshape' : (c.set .sideInfo s).shape h = .ok shape := hshape
  refine ⟨.create ((c.set .sideInfo s).learner h) (c.setting .epochs) none
    (if h.predictsValue then .targetScore else .mostProbable) (.create shape draws), ?_, rfl, rfl⟩
  rw [recommender, hresolve', Outcome.bind_ok, hshape', Outcome.bind_ok]
  rfl

/-- The sizes of side information of an accepted configuration. -/
theorem exists_sideSizes (hshape : c.shape h = .ok shape)
    (hsizes : ∀ f ∈ Field.sideSizes,
      ∃ m : Nat, (c.setting f).vectorSize = .ok (m : Int) ∧ (m : Int) < signedLimit) :
    ∃ size, shape.SideSizes size := by
  obtain ⟨-, -, -, huser, hitem, hdynamic⟩ := shape_eq_ok hshape
  have hsize (owner : SideOwner) : ∃ m : Nat,
      (shape.sideSize owner).vectorSize = .ok (m : Int) ∧ (m : Int) < signedLimit := by
    cases owner with
    | user =>
      rw [Shape.sideSize, huser]
      exact hsizes _ (by decide)
    | item =>
      rw [Shape.sideSize, hitem]
      exact hsizes _ (by decide)
    | pair =>
      rw [Shape.sideSize, hdynamic]
      exact hsizes _ (by decide)
  choose size hsize using hsize
  exact ⟨size, hsize⟩

end LearnerConfig

/-- A configuration that is accepted, with side information on and with it off, over
the same draws.  If the sizes of side information are counts that a word holds,
and none is given, then the factors with the order of their creation, the
thresholds and the draws taken are the same after every run, parameters of side
information read as zeros, and every further action gives the same or fails with
the same fault. -/
theorem side_learner_without_sides_is_factor_learner {K : Type} [ExactScalar K]
    (c : LearnerConfig K) (draws : Draws K) (accepted : Recommender K)
    (haccepted : c.recommender draws = .ok accepted)
    (hsizes : ∀ f ∈ Field.sideSizes,
      ∃ m : Nat, (c.setting f).vectorSize = .ok (m : Int) ∧ (m : Int) < signedLimit) :
    ∃ r r', (c.set .sideInfo (.flag true)).recommender draws = .ok r ∧
      (c.set .sideInfo (.flag false)).recommender draws = .ok r' ∧
      ∀ actions : List (Action K), (∀ action ∈ actions, action.givesSide = false) →
        let s := r.learner.after actions r.store
        let s' := r'.learner.after actions r'.store
        s.factors = s'.factors ∧ s.cuts = s'.cuts ∧ s.draws = s'.draws ∧
        (∀ key owner, key.kind.role = .parameters owner →
          ∃ size : Nat, (s.shape.sideSize owner).vectorSize = .ok (size : Int) ∧
            s.reading key =
              .ok (List.replicate s.shape.vectorCount (.sparse (.zero size)))) ∧
        ∀ next : Action K, next.givesSide = false →
          ((r.learner.respond next).run s).1 = ((r'.learner.respond next).run s').1 := by
  obtain ⟨h, shape, hresolve, hshape, -⟩ := LearnerConfig.recommender_eq_ok haccepted
  obtain ⟨r, hr, hlearner, hstore⟩ :=
    LearnerConfig.recommender_of_sideInfo hresolve hshape draws (.flag true)
  obtain ⟨r', hr', hlearner', hstore'⟩ :=
    LearnerConfig.recommender_of_sideInfo hresolve hshape draws (.flag false)
  obtain ⟨size, hsize⟩ := LearnerConfig.exists_sideSizes hshape hsizes
  refine ⟨r, r', hr, hr', fun actions hgives => ?_⟩
  have hscope : r.learner.requireScope = .ok () := by
    rw [hlearner]
    exact LearnerConfig.requireScope_learner _ h
  have hwithout : r'.learner = r.learner.withoutSides := by
    rw [hlearner, hlearner']
    rfl
  intro s s'
  have hs : Store.Simulates shape s s' := by
    show Store.Simulates shape (r.learner.after actions r.store) (r'.learner.after actions r'.store)
    rw [hwithout, hstore, hstore']
    exact r.learner.after_simulates hsize hscope hgives (Store.create_simulates shape draws)
  have hequivalent := hs.1.equivalent
  refine ⟨hequivalent.factors.symm, hequivalent.cuts.symm, hequivalent.draws.symm, ?_, ?_⟩
  · intro key owner hrole
    rw [hs.1.readings key owner hrole, hs.1.shape]
    exact ⟨size owner, (hsize owner).1, hsize.zeros_eq owner⟩
  · intro next hnext
    rw [hwithout]
    exact (r.learner.respond_simulates hsize hscope hnext s s' hs).1.eq.symm

/-- Sizes of side information and a penalty for it, after a step. -/
theorem side_learner_without_sides_is_factor_learner_rational :
    let c : LearnerConfig ℚ :=
      ((LearnerConfig.default.set .userSideSize (.ofInt 2)).set .itemSideSize (.ofInt 3)).set
        .itemSidePenalty (.ofInt 1)
    let actions : List (Action ℚ) := [.touchUser (.int 1), .train (.int 1) (.int 7) (.real 4)]
    ∃ r r', (c.set .sideInfo (.flag true)).recommender (.ofSource fun _ => 0) = .ok r ∧
      (c.set .sideInfo (.flag false)).recommender (.ofSource fun _ => 0) = .ok r' ∧
      ((r.learner.respond (.predict (.int 1) (.int 7))).run (r.learner.after actions r.store)).1 =
        ((r'.learner.respond (.predict (.int 1) (.int 7))).run
          (r'.learner.after actions r'.store)).1 := by
  intro c actions
  have hsizes : ∀ f ∈ Field.sideSizes,
      ∃ m : Nat, (c.setting f).vectorSize = .ok (m : Int) ∧ (m : Int) < signedLimit := by
    intro f hf
    simp only [Field.sideSizes, List.mem_cons, List.not_mem_nil, or_false] at hf
    rcases hf with rfl | rfl | rfl
    · exact ⟨2, rfl, by decide⟩
    · exact ⟨3, rfl, by decide⟩
    · exact ⟨0, rfl, by decide⟩
  obtain ⟨r, r', hr, hr', hruns⟩ :=
    side_learner_without_sides_is_factor_learner c (.ofSource fun _ => 0) _ rfl hsizes
  have hgives : ∀ action ∈ actions, action.givesSide = false := by
    intro action haction
    simp only [actions, List.mem_cons, List.not_mem_nil, or_false] at haction
    rcases haction with rfl | rfl <;> rfl
  obtain ⟨-, -, -, -, hnext⟩ := hruns actions hgives
  exact ⟨r, r', hr, hr', hnext (.predict (.int 1) (.int 7)) rfl⟩

/-- With side information of a size that no word with a sign holds, a learner cannot
predict although it was given none, while a learner of factors can. -/
theorem side_learner_fails_beyond_word :
    let c : LearnerConfig ℚ :=
      (LearnerConfig.default.set .factorSize (.ofInt 0)).set .itemSideSize (.ofInt signedLimit)
    ∃ r r', (c.set .sideInfo (.flag true)).recommender (.ofSource fun _ => 0) = .ok r ∧
      (c.set .sideInfo (.flag false)).recommender (.ofSource fun _ => 0) = .ok r' ∧
      ((r.learner.respond (.predict (.int 1) (.int 7))).run r.store).1 = .error .tooLarge ∧
      ∃ prediction,
        ((r'.learner.respond (.predict (.int 1) (.int 7))).run r'.store).1 = .ok prediction :=
  ⟨_, _, rfl, rfl, rfl, _, rfl⟩

end LatentFactors
