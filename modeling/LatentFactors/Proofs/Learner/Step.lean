import LatentFactors.Proofs.Gradient.Cuts
import LatentFactors.Proofs.Learner.Gather

/-!
# One step of a learner

A training step reads, computes and writes, in this order.  Nothing can fail
while it writes (`Learner.run_commit`), because there are as many new
thresholds as old ones (`Learner.run_train`).  So a step ends in one of three
ways (`Learner.train_cases`): it is refused before anything is read, or it
fails after families of the user and the item may have started, or everything
that was computed is written.

* `Learner.failed_train_keeps_store`: what a failed step leaves.
* `Learner.predict_moves` and `Learner.predictFull_moves`: a prediction starts
  families and does nothing else.
* `Learner.train_agree_of` and `Learner.couples_predict`: when two learners behave
  alike on related stores.
-/

namespace LatentFactors

variable {α : Type}

/-- The families that are written for a user and an item, in order. -/
def Improved.families (new : Improved α) (user item : Id) : List (FamilyKey × Family α) :=
  (⟨.userFactors, user⟩, new.users) :: (⟨.itemFactors, item⟩, new.items) :: new.terms

theorem Improved.mem_families {new : Improved α} {user item : Id} {e : FamilyKey × Family α} :
    e ∈ new.families user item ↔
      e = (⟨.userFactors, user⟩, new.users) ∨ e = (⟨.itemFactors, item⟩, new.items) ∨
        e ∈ new.terms := by
  rw [families, List.mem_cons, List.mem_cons]

namespace Store

/-- The store with some families replaced, one after the other. -/
def withFamilies (s : Store α) (families : List (FamilyKey × Family α)) : Store α :=
  { s with families := families.foldl (fun t e => t.insert e.1 e.2) s.families }

/-- The store with everything that was computed for a user and an item. -/
def accept (s : Store α) (user item : Id) (new : Improved α) : Store α :=
  { s with cuts := new.cuts }.withFamilies (new.families user item)

theorem run_forM_setFamily (families : List (FamilyKey × Family α)) :
    ∀ s : Store α,
      (families.forM fun e => setFamily e.1.kind e.1.owner e.2 : StoreM α Unit).run s =
        (.ok (), s.withFamilies families) := by
  induction families with
  | nil => exact fun s => rfl
  | cons e rest ih =>
    intro s
    show (setFamily e.1.kind e.1.owner e.2 >>= fun _ =>
      rest.forM fun e => setFamily e.1.kind e.1.owner e.2).run s = _
    rw [run_bind_of_ok (run_setFamily e.1.kind e.1.owner e.2 s), ih]
    rfl

end Store

namespace Learner

variable [Scalar α] {l : Learner α} {user item : Id} {y : Numeral α} {s t : Store α}

omit [Scalar α] in
/-- Nothing fails while a step writes. -/
theorem run_commit {new : Improved α} (h : new.cuts.length = s.cuts.length) :
    (commit user item new).run s = (.ok (), s.accept user item new) := by
  rw [commit, Store.run_bind_of_ok (Store.run_setCuts h),
    Store.run_bind_of_ok (Store.run_setFamily ..), Store.run_bind_of_ok (Store.run_setFamily ..)]
  exact Store.run_forM_setFamily new.terms _

/-! ## What was computed -/

/-- What the new parameters are, from what was gathered. -/
structure Improves (l : Learner α) (y : Numeral α) (g : Gathered α) (new : Improved α)
    (scored predicted : List α) : Prop where
  scores : l.scores g = .ok scored
  prediction : l.hypothesis.predict scored = .ok predicted
  cuts : l.gradient.updateCuts y g.cuts scored l.cutPenalty l.clampCuts.isOn = .ok new.cuts
  users : l.gradient.updateFamily g.users (.perClass g.items) y predicted l.factorPenalties
    (some userIntercept) = .ok new.users
  items : l.gradient.updateFamily g.items (.perClass g.users) y predicted l.factorPenalties
    (some itemIntercept) = .ok new.items
  terms : List.Forall₂ (fun t e => e.1 = t.term.key ∧
    l.gradient.updateFamily t.parameters (.shared t.feature) y predicted
      ⟨t.term.penalty, .ofReal 0, []⟩ none = .ok e.2) g.terms new.terms

theorem improve_eq_ok {g : Gathered α} {new : Improved α} (h : l.improve y g = .ok new) :
    ∃ scores prediction, l.Improves y g new scores prediction := by
  obtain ⟨scores, hscores, h⟩ := Outcome.bind_eq_ok.1 h
  obtain ⟨prediction, hprediction, h⟩ := Outcome.bind_eq_ok.1 h
  obtain ⟨cuts, hcuts, h⟩ := Outcome.bind_eq_ok.1 h
  obtain ⟨users, husers, h⟩ := Outcome.bind_eq_ok.1 h
  obtain ⟨items, hitems, h⟩ := Outcome.bind_eq_ok.1 h
  obtain ⟨terms, hterms, h⟩ := Outcome.bind_eq_ok.1 h
  injection h with h
  subst h
  refine ⟨scores, prediction, hscores, hprediction, hcuts, husers, hitems, ?_⟩
  refine (Outcome.mapM_eq_ok_iff.1 hterms).imp fun term e hterm => ?_
  obtain ⟨updated, hupdated, hterm⟩ := Outcome.bind_eq_ok.1 hterm
  injection hterm with hterm
  subst hterm
  exact ⟨rfl, hupdated⟩

theorem Improves.improve_eq {g : Gathered α} {new : Improved α} {scored predicted : List α}
    (h : l.Improves y g new scored predicted) : l.improve y g = .ok new := by
  have hterms : (g.terms.mapM fun t => do
      let updated ← l.gradient.updateFamily t.parameters (.shared t.feature) y predicted
        ⟨t.term.penalty, .ofReal 0, []⟩ none
      return (t.term.key, updated)) = .ok new.terms := by
    refine Outcome.mapM_eq_ok_iff.2 (h.terms.imp fun t e hterm => ?_)
    rw [hterm.2, Outcome.bind_ok, ← hterm.1]
    rfl
  rw [improve, h.scores, Outcome.bind_ok, h.prediction, Outcome.bind_ok, h.cuts, Outcome.bind_ok,
    h.users, Outcome.bind_ok, h.items, Outcome.bind_ok, hterms]
  rfl

/-- New parameters of side information belong to a side term. -/
theorem Improves.exists_term {g : Gathered α} {new : Improved α} {scored predicted : List α}
    (h : l.Improves y g new scored predicted) (hread : g.ReadFrom l user item t)
    {e : FamilyKey × Family α} (he : e ∈ new.terms) :
    ∃ x ∈ g.terms, x.term ∈ l.sideTerms user item ∧ e.1 = x.term.key ∧
      l.gradient.updateFamily x.parameters (.shared x.feature) y predicted
        ⟨x.term.penalty, .ofReal 0, []⟩ none = .ok e.2 := by
  obtain ⟨x, hx, hkey, hupdate⟩ := Outcome.exists_left_of_forall₂ h.terms he
  exact ⟨x, hx, term_mem_sideTerms hread.terms hx, hkey, hupdate⟩

theorem length_cuts_of_improve {g : Gathered α} {new : Improved α}
    (h : l.improve y g = .ok new) : new.cuts.length = g.cuts.length := by
  obtain ⟨scores, prediction, himproves⟩ := improve_eq_ok h
  exact Gradient.length_updateCuts himproves.cuts

/-- What was computed from what was gathered is written. -/
theorem run_commit_of_improve {g : Gathered α} {new : Improved α}
    (hgather : (l.gather user item).run s = (.ok g, t)) (himprove : l.improve y g = .ok new) :
    (commit user item new).run t = (.ok (), t.accept user item new) := by
  refine run_commit ?_
  rw [length_cuts_of_improve himprove, (readFrom_of_run hgather).cuts]

/-! ## How a step ends -/

/-- A step, run: the checks, what is gathered, what is computed from it, and the
store with what was computed. -/
theorem run_train (l : Learner α) (user item : Id) (y : Numeral α) (s : Store α) :
    (l.train user item y).run s =
      match l.requireScope >>= fun _ => l.gradient.checkLabel y s.shape.classCount with
      | .error e => (.error e, s)
      | .ok _ =>
        match (l.gather user item).run s with
        | (.error e, u) => (.error e, u)
        | (.ok g, u) =>
          match l.improve y g with
          | .error e => (.error e, u)
          | .ok new => (.ok (), u.accept user item new) := by
  rw [train, Store.run_bind, Store.run_lift]
  cases l.requireScope with
  | error e => rfl
  | ok _ =>
    rw [Outcome.bind_ok]
    dsimp only
    rw [Store.run_bind_of_ok (Store.run_get s), Store.run_bind, Store.run_lift]
    cases l.gradient.checkLabel y s.shape.classCount with
    | error e => rfl
    | ok _ =>
      dsimp only
      rw [Store.run_bind]
      rcases hgather : (l.gather user item).run s with ⟨e | g, u⟩
      · rfl
      · dsimp only
        rw [Store.run_bind, Store.run_lift]
        cases himprove : l.improve y g with
        | error e => rfl
        | ok new =>
          dsimp only
          rw [run_commit_of_improve hgather himprove]

/-- Steps of two learners on related stores have the same outcome if their checks do,
what they gather is related and what they compute from it agrees.  A relation that may
be weaker holds afterwards, if it is left by writing what was computed. -/
theorem train_agree_of {R S : Store α → Store α → Prop} {Q : Gathered α → Gathered α → Prop}
    {P : Improved α → Improved α → Prop} {l l' : Learner α} {s s' : Store α} (hs : R s s')
    (hchecks : (l'.requireScope >>= fun _ => l'.gradient.checkLabel y s'.shape.classCount) =
      l.requireScope >>= fun _ => l.gradient.checkLabel y s.shape.classCount)
    (hgather : Store.Couples R Q (l.gather user item) (l'.gather user item))
    (himprove : ∀ g g', Q g g' → Outcome.Agree P (l.improve y g) (l'.improve y g'))
    (hkept : ∀ t t', R t t' → S t t')
    (haccept : ∀ t t' new new', R t t' → P new new' →
      S (t.accept user item new) (t'.accept user item new')) :
    Outcome.Agree Eq ((l.train user item y).run s).1 ((l'.train user item y).run s').1 ∧
      S ((l.train user item y).run s).2 ((l'.train user item y).run s').2 := by
  rw [run_train, run_train, hchecks]
  cases l.requireScope >>= fun _ => l.gradient.checkLabel y s.shape.classCount with
  | error e => exact ⟨.error e, hkept s s' hs⟩
  | ok _ =>
    obtain ⟨hagree, hafter⟩ := hgather s s' hs
    dsimp only
    generalize (l.gather user item).run s = gathered at hagree hafter ⊢
    generalize (l'.gather user item).run s' = gathered' at hagree hafter ⊢
    obtain ⟨r, t⟩ := gathered
    obtain ⟨r', t'⟩ := gathered'
    cases hagree with
    | error e => exact ⟨.error e, hkept t t' hafter⟩
    | @ok g g' hg =>
      have hnew := himprove g g' hg
      dsimp only
      generalize l.improve y g = improved at hnew ⊢
      generalize l'.improve y g' = improved' at hnew ⊢
      cases hnew with
      | error e => exact ⟨.error e, hkept t t' hafter⟩
      | ok hnew => exact ⟨.ok rfl, haccept t t' _ _ hafter hnew⟩

/-- A step is refused before anything is read, or it fails before anything is
written, or all of it is written. -/
theorem train_cases {r : Outcome α Unit} (h : (l.train user item y).run s = (r, t)) :
    (t = s ∧ ∃ e, r = .error e) ∨
      (l.gradient.checkLabel y s.shape.classCount = .ok () ∧ s.Grows user item t ∧
        ∃ e, r = .error e) ∨
      ∃ g u new, (l.gather user item).run s = (.ok g, u) ∧ l.improve y g = .ok new ∧
        r = .ok () ∧ t = u.accept user item new := by
  rw [run_train] at h
  split at h
  · next e _ =>
    cases h
    exact Or.inl ⟨rfl, e, rfl⟩
  · next hchecks =>
    obtain ⟨-, -, hlabel⟩ := Outcome.bind_eq_ok.1 hchecks
    split at h
    · next e u hgather =>
      cases h
      exact Or.inr (Or.inl ⟨hlabel, (gather_moves l user item).of_run hgather, e, rfl⟩)
    · next g u hgather =>
      split at h
      · next e himprove =>
        cases h
        exact Or.inr (Or.inl ⟨hlabel, (gather_moves l user item).of_run hgather, e, rfl⟩)
      · next new himprove =>
        cases h
        exact Or.inr (Or.inr ⟨g, u, new, hgather, himprove, rfl, rfl⟩)

/-- A failed step changes nothing that there was.  If the observed value is
refused, the store stays as it is; otherwise nothing happens but that families
of the user and the item start.  Once everything has been computed, nothing
fails while it is written. -/
theorem failed_train_keeps_store (l : Learner α) (user item : Id) (y : Numeral α) (s : Store α) :
    (∀ e t, (l.train user item y).run s = (.error e, t) →
      ((∃ fault, l.gradient.checkLabel y s.shape.classCount = .error fault) → t = s) ∧
        s.Grows user item t) ∧
      ∀ g u new, (l.gather user item).run s = (.ok g, u) → l.improve y g = .ok new →
        (commit user item new).run u = (.ok (), u.accept user item new) := by
  refine ⟨fun e t h => ?_, fun g u new hgather himprove => run_commit_of_improve hgather himprove⟩
  rcases train_cases h with ⟨rfl, -⟩ | ⟨hlabel, hgrows, -⟩ | ⟨g, u, new, -, -, hok, -⟩
  · exact ⟨fun _ => rfl, .refl _⟩
  · refine ⟨?_, hgrows⟩
    rintro ⟨fault, hrefused⟩
    rw [hlabel] at hrefused
    cases hrefused
  · cases hok

/-- A user whose family was replaced by one without vectors, and a new item. -/
theorem failed_train_keeps_store_without_vectors :
    let l : Learner Float := ⟨.ofHypothesis .ols (.ofInt 1), .absent, .absent, .absent,
      .flag true, .factors⟩
    let s : Store Float := ⟨⟨.ofInt 2, 1, false, .absent, .absent, .absent⟩,
      Table.empty.insert ⟨.userFactors, .int 1⟩ [], .empty, [], .ofSource fun _ => 0⟩
    ∃ t, (l.train (.int 1) (.int 7) (.integer 4)).run s = (.error (.familyMismatch 0 1), t) ∧
      s.Grows (.int 1) (.int 7) t := by
  intro l s
  have hrun : (l.train (.int 1) (.int 7) (.integer 4)).run s =
      (.error (.familyMismatch 0 1), ((l.train (.int 1) (.int 7) (.integer 4)).run s).2) := rfl
  exact ⟨_, hrun, ((failed_train_keeps_store l (.int 1) (.int 7) (.integer 4) s).1 _ _ hrun).2⟩

theorem linearCombination_moves (l : Learner α) (user item : Id) :
    Store.Moves (Store.Grows user item) (l.linearCombination user item) := by
  refine .bind (.lift _) fun _ _ _ _ => ?_
  refine .bind (gather_moves l user item) fun _ _ _ _ => ?_
  exact .lift _

/-- A prediction starts families of the user and the item and does nothing
else. -/
theorem predict_moves (l : Learner α) (user item : Id) :
    Store.Moves (Store.Grows user item) (l.predict user item) :=
  .bind (linearCombination_moves l user item) fun _ _ _ _ => .lift _

theorem predictFull_moves (l : Learner α) (user item : Id) :
    Store.Moves (Store.Grows user item) (l.predictFull user item) :=
  .bind (linearCombination_moves l user item) fun _ _ _ _ => .lift _

/-- A prediction, run: what is gathered, its scores and the distribution. -/
theorem run_predictFull (l : Learner α) (user item : Id) (s : Store α) :
    (l.predictFull user item).run s =
      match l.requireScope with
      | .error e => (.error e, s)
      | .ok _ =>
        match (l.gather user item).run s with
        | (.error e, u) => (.error e, u)
        | (.ok g, u) => (l.scores g >>= l.hypothesis.predictFull, u) := by
  rw [predictFull, linearCombination, Store.run_bind, Store.run_bind, Store.run_lift]
  cases l.requireScope with
  | error e => rfl
  | ok _ =>
    dsimp only
    rw [Store.run_bind]
    rcases (l.gather user item).run s with ⟨e | g, u⟩
    · rfl
    · dsimp only
      rw [Store.run_lift]
      cases l.scores g <;> rfl

section Couples

variable {R : Store α → Store α → Prop} {l l' : Learner α} {user item : Id}

/-- Learners score alike on related stores if what they gather is related and scored
alike. -/
theorem couples_linearCombination {Q : Gathered α → Gathered α → Prop}
    (hscope : l'.requireScope = l.requireScope)
    (hgather : Store.Couples R Q (l.gather user item) (l'.gather user item))
    (hscores : ∀ g g', Q g g' → l'.scores g' = l.scores g) :
    Store.Couples R Eq (l.linearCombination user item) (l'.linearCombination user item) := by
  rw [linearCombination, linearCombination, hscope]
  refine .bind (.lift _) fun _ _ _ => ?_
  exact .bind hgather fun g g' hg => .lift_agree (.of_eq (hscores g g' hg))

variable (hhypothesis : l'.hypothesis = l.hypothesis)
  (hscores : Store.Couples R Eq (l.linearCombination user item) (l'.linearCombination user item))

include hhypothesis hscores

theorem couples_predict :
    Store.Couples R Eq (l.predict user item) (l'.predict user item) := by
  rw [predict, predict, hhypothesis]
  refine .bind hscores ?_
  rintro scores _ rfl
  exact .lift_agree (.of_eq rfl)

theorem couples_predictFull :
    Store.Couples R Eq (l.predictFull user item) (l'.predictFull user item) := by
  rw [predictFull, predictFull, hhypothesis]
  refine .bind hscores ?_
  rintro scores _ rfl
  exact .lift_agree (.of_eq rfl)

end Couples

end Learner

end LatentFactors
