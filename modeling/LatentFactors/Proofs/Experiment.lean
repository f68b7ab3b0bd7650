import LatentFactors.Experiment
import LatentFactors.Proofs.Arithmetic.Rational
import LatentFactors.Proofs.Recommender.Equivalent

/-!
# Scoring leaves no trace

An experiment scores by asking for estimates, so scoring after each epoch does
not change what is learned in the next one.

* `Experiment.fit_follows`: if training with scores after each epoch succeeds,
  then so does training without them, and the recommenders cannot be told apart.
* `Experiment.fit_matches_fit`: without scores, an experiment trains exactly as
  `Recommender.fit` does with as many epochs, also where it fails.

`questions_leave_no_trace` puts this together with what is known of sessions.
-/

namespace LatentFactors

namespace Experiment

open Recommender (Matches)

variable {α : Type} [Scalar α] {retime : Setting α → Setting α}

/-! ## Scoring -/

theorem predictions_matches (e : Experiment α) :
    Stateful.Couples (Matches retime) Eq e.predictions e.predictions := by
  refine .bind (Recommender.Parallel.lift _) ?_
  rintro users _ rfl
  refine .bind (.mapM fun user _ => .bind (Recommender.Parallel.lift _) ?_) ?_
  · rintro items _ rfl
    refine .bind (Recommender.matches_parallel.predictForUser user _) ?_
    rintro estimates _ rfl
    exact .pure rfl
  · rintro groups _ rfl
    split
    · exact .pure rfl
    · exact .pure rfl

theorem score_matches (e : Experiment α) :
    Stateful.Couples (Matches retime) Eq e.score e.score := by
  refine .bind e.predictions_matches ?_
  rintro frame _ rfl
  exact Recommender.Parallel.lift _

/-- Scoring changes nothing that can be told, also when it fails. -/
theorem score_leaves (e : Experiment α) : Stateful.Moves (Matches id) e.score := by
  refine .bind (.bind (.lift _) fun _ _ _ _ => ?_) fun _ _ _ _ => .lift _
  refine .bind (.mapM fun user _ => .bind (.lift _) fun _ _ _ _ => ?_) fun _ _ _ _ => ?_
  · exact .bind (Recommender.predictForUser_leaves user _) fun _ _ _ _ => .pure _
  · split
    · exact .pure _
    · exact .pure _

/-! ## Training -/

theorem matches_of_left {r t r' : Recommender α} (h : Matches id r t)
    (h' : Matches retime r r') : Matches retime t r' := by
  obtain ⟨store, rfl, hstore⟩ := h
  obtain ⟨store', rfl, hstore'⟩ := h'
  exact ⟨store', rfl, hstore.symm.trans hstore'⟩

/-- An epoch that succeeds passes over the training frame, whether or not it is
scored. -/
theorem epoch_follows (e : Experiment α) (number : Nat) :
    Stateful.Follows (Matches retime) (fun _ _ => True) (e.epoch number)
      (Recommender.partialFit e.train) := by
  refine .extend (.of_couples (Recommender.matches_parallel.partialFit e.train)) (fun _ => ?_)
    fun _ _ _ => matches_of_left
  split
  · exact .bind e.score_leaves fun _ _ _ _ => .pure _
  · exact .pure _

/-- Without scores an epoch is a pass over the training frame, also where it
fails. -/
theorem epoch_matches_partialFit {e : Experiment α} (h : e.eachEpoch = false) (number : Nat) :
    Stateful.Couples (Matches retime) (fun _ _ => True) (e.epoch number)
      (Recommender.partialFit e.train) := by
  rw [epoch, h]
  exact (Recommender.matches_parallel.partialFit e.train).map_left fun _ => []

/-- Training with scores that succeeds is followed by training without them. -/
theorem fit_follows (e : Experiment α) :
    Stateful.Follows (Matches id) (fun _ _ => True) { e with eachEpoch := true }.fit
      { e with eachEpoch := false }.fit := by
  refine .bind (.of_couples (Recommender.matches_parallel.prepare e.train e.sides)) fun _ _ _ => ?_
  refine .bind (.of_couples (Recommender.Parallel.lift _)) ?_
  rintro epochs _ rfl
  refine .bind (.mapM fun n _ => ?_) fun _ _ _ => .of_couples (.pure trivial)
  exact ({ e with eachEpoch := true }.epoch_follows (n + 1)).map_right fun _ => []

/-- What an experiment does after preparing. -/
def epochReports (e : Experiment α) : RecommenderM α (List (Report α)) := do
  let epochs ← Recommender.lift e.epochs.count
  let reports ← (List.range epochs.toNat).mapM fun n => e.epoch (n + 1)
  return reports.flatten

/-- As many passes over the training frame. -/
def passes (e : Experiment α) : RecommenderM α PUnit := do
  let epochs ← Recommender.lift e.epochs.count
  (List.range epochs.toNat).forM fun _ => Recommender.partialFit e.train

theorem epochReports_follows (e : Experiment α) :
    Stateful.Follows (Matches retime) (fun _ _ => True) e.epochReports e.passes := by
  refine .bind (.of_couples (Recommender.Parallel.lift _)) ?_
  rintro epochs _ rfl
  rw [Stateful.forM_eq_mapM]
  refine .bind (.mapM fun n _ => e.epoch_follows (n + 1)) fun _ _ _ => ?_
  exact .of_couples (.pure trivial)

theorem epochReports_matches_passes {e : Experiment α} (h : e.eachEpoch = false) :
    Stateful.Couples (Matches retime) (fun _ _ => True) e.epochReports e.passes := by
  refine .bind (Recommender.Parallel.lift _) ?_
  rintro epochs _ rfl
  rw [Stateful.forM_eq_mapM]
  refine .bind (.mapM_forall₂ (Q := fun _ _ => True) (List.forall₂_same.2 fun n _ => ?_))
    fun _ _ _ => .pure trivial
  exact epoch_matches_partialFit h (n + 1)

/-- A recommender with the number of epochs of an experiment fits as the
experiment trains, if that is not scored. -/
theorem fit_matches_fit {e : Experiment α} (h : e.eachEpoch = false) :
    Stateful.Couples (Matches fun _ => e.epochs) (fun _ _ => True) e.fit
      (Recommender.fit e.train e.sides) := by
  refine .bind (Recommender.matches_parallel.prepare e.train e.sides) fun _ _ _ => ?_
  -- The recommender reads the number of epochs after it has prepared.
  rintro r _ ⟨store, rfl, hstore⟩
  exact epochReports_matches_passes h r _ ⟨store, rfl, hstore⟩

/-- Also if it is scored, a recommender with the number of epochs of an experiment
fits as the experiment trains, as long as that succeeds. -/
theorem fit_followed_by_fit (e : Experiment α) :
    Stateful.Follows (Matches fun _ => e.epochs) (fun _ _ => True) e.fit
      (Recommender.fit e.train e.sides) := by
  refine .bind (.of_couples (Recommender.matches_parallel.prepare e.train e.sides)) fun _ _ _ => ?_
  rintro r _ reports t ⟨store, rfl, hstore⟩
  exact e.epochReports_follows r _ reports t ⟨store, rfl, hstore⟩

/-- Running with scores that succeeds is followed by running without them, with
the same final scores. -/
theorem run_follows (e : Experiment α) :
    Stateful.Follows (Matches id) (fun a b => b.1 = a.1) { e with eachEpoch := true }.run
      { e with eachEpoch := false }.run := by
  refine .bind e.fit_follows fun reports reports' _ => ?_
  have hscore : Stateful.Couples (Matches id) Eq { e with eachEpoch := true }.score
    { e with eachEpoch := false }.score := e.score_matches
  refine .bind (.of_couples hscore) ?_
  rintro scores _ rfl
  exact .of_couples (.pure rfl)

end Experiment

open Recommender in
/-- Asking a recommender about a user changes nothing but its store, and the store
after the question has the same factors in the same order, the same side
information, thresholds and draws, and its parameters of side information read the
same.

So questions can be put into a session anywhere without changing the other
answers or what can be told of the recommender after it.

An experiment that scores after each epoch and succeeds has the same final scores
as one that does not.  And training of an experiment leaves what `fit` leaves with
as many epochs: whether or not it succeeds, if there are no scores after each
epoch, and otherwise if it succeeds. -/
theorem questions_leave_no_trace (α : Type) [Scalar α] :
    (∀ (inquiry : Inquiry) (r : Recommender α), ∃ store,
      ((answerInquiry inquiry).run r).2 = { r with store } ∧ r.store.Equivalent store) ∧
    (∀ (plan : List (Planned α)) (r : Recommender α),
      (session (ownCalls plan) r).1 = ownAnswers plan (session (allCalls plan) r).1 ∧
        ∃ store, (session (ownCalls plan) r).2 = { (session (allCalls plan) r).2 with store } ∧
          (session (allCalls plan) r).2.store.Equivalent store) ∧
    (∀ (e : Experiment α) (r t : Recommender α) (scores : Scores α) (reports : List (Report α)),
      { e with eachEpoch := true }.run.run r = (.ok (scores, reports), t) →
        ∃ reports' store, { e with eachEpoch := false }.run.run r =
            (.ok (scores, reports'), { t with store }) ∧ t.store.Equivalent store) ∧
    ∀ (e : Experiment α) (r : Recommender α),
      let fitted := (fit e.train e.sides).run { r with epochs := e.epochs }
      (e.eachEpoch = false →
        Outcome.Agree (fun _ _ => True) (e.fit.run r).1 fitted.1 ∧
          ∃ store, fitted.2 = { (e.fit.run r).2 with epochs := e.epochs, store } ∧
            (e.fit.run r).2.store.Equivalent store) ∧
      ∀ reports t, e.fit.run r = (.ok reports, t) →
        ∃ store, fitted = (.ok (), { t with epochs := e.epochs, store }) ∧
          t.store.Equivalent store := by
  refine ⟨fun inquiry r => ask_leaves inquiry r, fun plan r => ?_, ?_, fun e r => ?_⟩
  · exact session_matches plan r r (refl_of (Matches id) r)
  · intro e r t scores reports hrun
    obtain ⟨⟨scores', reports'⟩, t', hrun', rfl, store, rfl, hstore⟩ :=
      e.run_follows r r (scores, reports) t (refl_of (Matches id) r) hrun
    exact ⟨reports', store, hrun', hstore⟩
  · have hstart : Matches (fun _ => e.epochs) r { r with epochs := e.epochs } :=
      ⟨r.store, rfl, .refl r.store⟩
    refine ⟨fun h => Experiment.fit_matches_fit h _ _ hstart, fun reports t hrun => ?_⟩
    obtain ⟨_, t', hrun', -, store, rfl, hstore⟩ :=
      e.fit_followed_by_fit _ _ reports t hstart hrun
    exact ⟨store, hrun', hstore⟩

/-- Two epochs with side information, scored after each of them and scored once. -/
theorem questions_leave_no_trace_of_epochs :
    let ratings : Frame ℚ := ⟨.ofList [("user", .ints .signed [1, 2]),
      ("item", .ints .signed [7, 7]), ("rating", .ints .signed [3, 5])]⟩
    let l : Learner ℚ := ⟨.ofHypothesis .ols (.ofReal (1 / 2)), .ofInt 0, .ofInt 0, .ofInt 0,
      .flag true, .sideInfo (.ofInt 0) (.ofInt 0) (.ofInt 0)⟩
    let shape : Shape ℚ := ⟨.ofInt 0, 1, false, .ofInt 0, .ofInt 2, .ofInt 0⟩
    let r : Recommender ℚ := .create l (.ofInt 5) none .targetScore
      (.create shape (.ofSource fun _ => 0))
    let e : Experiment ℚ := ⟨ratings, ratings, .ofInt 2, true, 1, true, false,
      [(.item (.int 7), .dense #[1, 2])]⟩
    ∃ scores reports reports' t store, e.run.run r = (.ok (scores, reports), t) ∧
      { e with eachEpoch := false }.run.run r = (.ok (scores, reports'), { t with store }) ∧
      t.store.Equivalent store := by
  intro ratings l shape r e
  have hsucceeds : (e.run.run r).1.toOption.isSome = true := by decide +kernel
  rcases hrun : e.run.run r with ⟨fault | ⟨scores, reports⟩, t⟩
  · rw [hrun] at hsucceeds
    cases hsucceeds
  · obtain ⟨reports', store, hrun', hstore⟩ :=
      (questions_leave_no_trace ℚ).2.2.1 e r t scores reports hrun
    exact ⟨scores, reports, reports', t, store, rfl, hrun', hstore⟩

end LatentFactors
