import LatentFactors.Command.Tune
import LatentFactors.Proofs.Arithmetic.Undefined
import LatentFactors.Proofs.Stateful
import LatentFactors.Proofs.Tuning.Sorting

/-!
# The best trial of a search

A search picks one of its trials by comparisons of their scores.  The first best
trial (`Tuning.FirstBest`) is picked if every trial before it has a score
(`Tuning.best?_eq_some`).  Trials without a score are better than nothing and worse
than nothing, so one of them that is evaluated first is picked whatever comes after
it (`Tuning.best?_of_not_isScored`).

`search_keeps_first_best` puts these together with what a search evaluates, records
and reports.
-/

namespace LatentFactors

namespace Tuning

variable {α : Type} [Scalar α]

/-- The score of a trial that is searched for. -/
def score (h : Hypothesis) (t : Trial α) : α := scoreOf t.scores (metric h)

/-- Whether the score of a trial is a number. -/
def isScored (h : Hypothesis) (t : Trial α) : Bool := !Scalar.isUndefined (score h t)

/-- Whether one trial has a better score than another: a smaller error, or a larger
recall. -/
def better (h : Hypothesis) (s t : Trial α) : Bool :=
  if h.predictsValue then Scalar.less (score h s) (score h t)
  else Scalar.less (score h t) (score h s)

/-- A list of trials has a first best one: its score is a number, those before it have
worse scores or none, and none after it has a better one. -/
structure FirstBest (h : Hypothesis) (before : List (Trial α)) (best : Trial α)
    (after : List (Trial α)) : Prop where
  scored : isScored h best = true
  worse_before : ∀ t ∈ before, isScored h t = true → better h best t = true
  not_better_after : ∀ t ∈ after, better h t best = false

/-! ## What is picked -/

/-- A trial is picked if it is better than all before it, and none after it is better
than it. -/
theorem best?_eq_some {h : Hypothesis} {before after : List (Trial α)} {best : Trial α}
    (hbefore : ∀ t ∈ before, better h best t = true)
    (hafter : ∀ t ∈ after, better h t best = false) :
    best? h (before ++ best :: after) = some best := by
  rw [best?]
  cases hvalue : h.predictsValue with
  | true =>
    simp only [better, hvalue, if_true] at hbefore hafter
    rw [if_pos rfl]
    exact head?_sortAscending hbefore hafter
  | false =>
    simp only [better, hvalue, Bool.false_eq_true, if_false] at hbefore hafter
    rw [if_neg Bool.false_ne_true, List.reverse_append, List.reverse_cons, List.append_assoc,
      List.singleton_append]
    refine getLast?_sortAscending (fun t ht => ?_) fun t ht => ?_
    · exact hafter t (List.mem_reverse.1 ht)
    · exact hbefore t (List.mem_reverse.1 ht)

/-! ## The first best trial -/

section

variable [UndefinedLaws α]

theorem better_of_not_isScored_left {h : Hypothesis} {s : Trial α} (hs : isScored h s = false)
    (t : Trial α) : better h s t = false := by
  rw [isScored, Bool.not_eq_false'] at hs
  rw [better]
  split
  · exact UndefinedLaws.less_of_left hs _
  · exact UndefinedLaws.less_of_right hs _

theorem better_of_not_isScored_right {h : Hypothesis} {t : Trial α} (ht : isScored h t = false)
    (s : Trial α) : better h s t = false := by
  rw [isScored, Bool.not_eq_false'] at ht
  rw [better]
  split
  · exact UndefinedLaws.less_of_right ht _
  · exact UndefinedLaws.less_of_left ht _

/-- A trial without a score that is evaluated first is picked, whatever comes after
it. -/
theorem best?_of_not_isScored {h : Hypothesis} {first : Trial α} (hfirst : isScored h first = false)
    (rest : List (Trial α)) : best? h (first :: rest) = some first := by
  rw [← List.nil_append (first :: rest)]
  exact best?_eq_some (by simp) fun t _ => better_of_not_isScored_right hfirst t

theorem isScored_of_better {h : Hypothesis} {s t : Trial α} (hst : better h s t = true) :
    isScored h s = true ∧ isScored h t = true := by
  constructor
  · cases hs : isScored h s with
    | true => rfl
    | false => rw [better_of_not_isScored_left hs] at hst; cases hst
  · cases ht : isScored h t with
    | true => rfl
    | false => rw [better_of_not_isScored_right ht] at hst; cases hst

variable [OrderLaws α]

omit [UndefinedLaws α] in
/-- Trials with scores are compared by a total preorder. -/
theorem better_eq {h : Hypothesis} {s t : Trial α} (hs : isScored h s = true)
    (ht : isScored h t = true) :
    better h s t = !(if h.predictsValue then Scalar.atMost (score h t) (score h s)
      else Scalar.atMost (score h s) (score h t)) := by
  rw [isScored, Bool.not_eq_true'] at hs ht
  rw [better]
  split
  · exact OrderLaws.less_eq hs ht
  · exact OrderLaws.less_eq ht hs

theorem not_better_of_better {h : Hypothesis} {s t : Trial α} (hst : better h s t = true) :
    better h t s = false := by
  obtain ⟨hs, ht⟩ := isScored_of_better hst
  rw [better_eq hs ht] at hst
  rw [better_eq ht hs]
  rw [isScored, Bool.not_eq_true'] at hs ht
  rcases OrderLaws.atMost_total hs ht with hle | hle <;> split at hst <;> simp_all

/-- If no trial is better than the next one in a row of three, then the first is not
better than the third. -/
theorem not_better_trans {h : Hypothesis} {s t u : Trial α} (ht : isScored h t = true)
    (hst : better h s t = false) (htu : better h t u = false) : better h s u = false := by
  cases hsu : better h s u with
  | false => rfl
  | true =>
    obtain ⟨hs, hu⟩ := isScored_of_better hsu
    rw [better_eq hs ht, Bool.not_eq_false'] at hst
    rw [better_eq ht hu, Bool.not_eq_false'] at htu
    rw [better_eq hs hu, Bool.not_eq_true'] at hsu
    rw [isScored, Bool.not_eq_true'] at hs ht hu
    split at hsu
    · next hvalue =>
      rw [if_pos hvalue] at hst htu
      rw [OrderLaws.atMost_trans hu ht hs htu hst] at hsu
      cases hsu
    · next hvalue =>
      rw [if_neg hvalue] at hst htu
      rw [OrderLaws.atMost_trans hs ht hu hst htu] at hsu
      cases hsu

/-- No trial of a list is better than its first best one. -/
theorem FirstBest.not_better {h : Hypothesis} {before after : List (Trial α)} {best : Trial α}
    (hbest : FirstBest h before best after) {t : Trial α} (ht : t ∈ before ++ best :: after) :
    better h t best = false := by
  cases hbetter : better h t best with
  | false => rfl
  | true =>
    rcases List.mem_append.1 ht with ht | ht
    · have hworse := hbest.worse_before t ht (isScored_of_better hbetter).1
      rw [not_better_of_better hworse] at hbetter
      cases hbetter
    · rcases List.mem_cons.1 ht with rfl | ht
      · rw [not_better_of_better hbetter] at hbetter
        cases hbetter
      · rw [hbest.not_better_after t ht] at hbetter
        cases hbetter

/-- Among trials of which one has a score there is a first best one. -/
theorem exists_firstBest {h : Hypothesis} {trials : List (Trial α)}
    (hscored : ∃ t ∈ trials, isScored h t = true) :
    ∃ before best after, trials = before ++ best :: after ∧ FirstBest h before best after := by
  induction trials with
  | nil => simp at hscored
  | cons t rest ih =>
    by_cases hrest : ∃ s ∈ rest, isScored h s = true
    · obtain ⟨before, best, after, rfl, hbest⟩ := ih hrest
      by_cases hworse : isScored h t = true → better h best t = true
      · refine ⟨t :: before, best, after, rfl, hbest.scored, ?_, hbest.not_better_after⟩
        exact List.forall_mem_cons.2 ⟨hworse, hbest.worse_before⟩
      · -- The first best one of the rest is not better than the trial in front.
        simp only [Classical.not_imp, Bool.not_eq_true] at hworse
        refine ⟨[], t, before ++ best :: after, rfl, hworse.1, by simp, fun s hs => ?_⟩
        exact not_better_trans hbest.scored (hbest.not_better hs) hworse.2
    · have hunscored : ∀ s ∈ rest, isScored h s = false := fun s hs =>
        Bool.eq_false_iff.2 fun h => hrest ⟨s, hs, h⟩
      obtain ⟨s, hs, hscore⟩ := hscored
      rcases List.mem_cons.1 hs with rfl | hs
      · refine ⟨[], s, rest, rfl, hscore, by simp, fun u hu => ?_⟩
        exact better_of_not_isScored_left (hunscored u hu) s
      · exact absurd ⟨s, hs, hscore⟩ hrest

end

/-! ## Evaluating a point -/

theorem names_of_scoreFrame {e : Experiment α} {f : Frame α} {scores : Scores α}
    (h : e.scoreFrame f = .ok scores) :
    scores.map (·.1) = if e.predictsValue then ["RMSE", "MAE"] else ["precision", "recall"] := by
  obtain ⟨rows, -, h⟩ := Outcome.bind_eq_ok.1 h
  rw [Experiment.measure] at h
  split at h
  · next hvalue =>
    obtain ⟨rmse, -, h⟩ := Outcome.bind_eq_ok.1 h
    obtain ⟨mae, -, h⟩ := Outcome.bind_eq_ok.1 h
    cases h
    rw [if_pos hvalue]
    rfl
  · next hvalue =>
    obtain ⟨classes, -, h⟩ := Outcome.bind_eq_ok.1 h
    cases h
    rw [if_neg hvalue]
    rfl

theorem names_of_run {e : Experiment α} {r t : Recommender α} {scores : Scores α}
    {reports : List (Report α)} (h : e.run.run r = (.ok (scores, reports), t)) :
    scores.map (·.1) = if e.predictsValue then ["RMSE", "MAE"] else ["precision", "recall"] := by
  obtain ⟨_, t₁, -, h⟩ := Stateful.run_bind_eq_ok.1 h
  obtain ⟨scores', t₂, hscore, h⟩ := Stateful.run_bind_eq_ok.1 h
  obtain ⟨f, t₃, -, hframe⟩ := Stateful.run_bind_eq_ok.1 hscore
  cases h
  exact names_of_scoreFrame (congrArg Prod.fst hframe)

/-- Every point is evaluated by the scores that are recorded. -/
theorem names_of_evaluatePoint {h : Hypothesis} {train test : Frame α}
    {offset : Option (Numeral α)} {draws : Draws α} {point : Params α} {description : String}
    {scores : Scores α}
    (heval : evaluatePoint h train test offset draws point = .ok (description, scores)) :
    scores.map (·.1) = recorded h := by
  unfold evaluatePoint at heval
  obtain ⟨c, -, heval⟩ := Outcome.bind_eq_ok.1 heval
  obtain ⟨r, -, heval⟩ := Outcome.bind_eq_ok.1 heval
  obtain ⟨e, hshifted, heval⟩ := Outcome.bind_eq_ok.1 heval
  obtain ⟨⟨⟨scores', reports⟩, t⟩, hrun, heval⟩ := Outcome.bind_eq_ok.1 heval
  cases heval
  have hvalue : e.predictsValue = h.predictsValue := by
    cases offset with
    | none =>
      cases hshifted
      rfl
    | some offset =>
      obtain ⟨train', -, hshifted⟩ := Outcome.bind_eq_ok.1 hshifted
      obtain ⟨test', -, hshifted⟩ := Outcome.bind_eq_ok.1 hshifted
      cases hshifted
      rfl
  rw [recorded, ← hvalue]
  rcases hran : e.run.run r with ⟨fault | result, t'⟩
  · rw [Recommender.evaluate, hran] at hrun
    cases hrun
  · rw [Recommender.evaluate, hran] at hrun
    cases hrun
    exact names_of_run hran

end Tuning

namespace Command.Tune

/-- The trials of a search: none if the points are only listed, and otherwise one for
every point, with the scores of its evaluation. -/
def Searches (s : Settings) (folder : Folder) (draws : Draws Float) (h : Hypothesis)
    (points : List (Point Float)) (trials : List (Trial Float)) : Prop :=
  ∃ train test offset, folder.frame s.trainPath = .ok train ∧ folder.frame s.testPath = .ok test ∧
    s.offset.mapM realOption = .ok offset ∧
    if s.pointsOnly then trials = []
    else List.Forall₂ (fun point trial => trial.point = point ∧ ∃ description,
      Tuning.evaluatePoint h train test (offset.map .real) draws point.params =
        .ok (description, trial.scores)) points trials

theorem algorithm?_of_algorithm {name : String} {h : Hypothesis}
    (hname : (Hypothesis.algorithm name : Outcome Float Hypothesis) = .ok h) :
    Hypothesis.algorithm? name = some h := by
  rw [Hypothesis.algorithm] at hname
  split at hname
  · next hfound =>
    cases hname
    exact hfound
  · cases hname

/-- What a search gives: its points, the record of its trials and the best one. -/
theorem execute_eq_ok {s : Settings} {folder : Folder} {pointDraws draws : Draws Float}
    {answer : Answer} (hrun : execute s folder pointDraws draws = .ok answer) :
    ∃ h points trials, Hypothesis.algorithm? s.algorithm = some h ∧
      Searches s folder draws h points trials ∧ answer.points = points.map pointEntries ∧
      answer.record.rows = trials.map (recordRow (recordHeader h)) ∧
      answer.best = (Tuning.best? h trials).map trialEntries ∧
      ∀ best ∈ Tuning.best? h trials, "finished with " ++ Tuning.metric h ++ " " ++
        Decimal.fixed 3 (Tuning.score h best) ∈ answer.log := by
  unfold execute at hrun
  obtain ⟨_, -, hrun⟩ := Outcome.bind_eq_ok.1 hrun
  obtain ⟨h, hh, hrun⟩ := Outcome.bind_eq_ok.1 hrun
  obtain ⟨train, htrain, hrun⟩ := Outcome.bind_eq_ok.1 hrun
  obtain ⟨test, htest, hrun⟩ := Outcome.bind_eq_ok.1 hrun
  obtain ⟨offset, hoffset, hrun⟩ := Outcome.bind_eq_ok.1 hrun
  obtain ⟨_, -, hrun⟩ := Outcome.bind_eq_ok.1 hrun
  obtain ⟨count, hcount, hrun⟩ := Outcome.bind_eq_ok.1 hrun
  obtain ⟨points, hpoints, hrun⟩ := Outcome.bind_eq_ok.1 hrun
  extract_lets header metric finish at hrun
  have hfinish (evaluated : List (String × Trial Float)) (hrun : finish evaluated = .ok answer) :
      let trials := evaluated.map (·.2)
      answer.points = points.map pointEntries ∧
        answer.record.rows = trials.map (recordRow header) ∧
        answer.best = (Tuning.best? h trials).map trialEntries ∧
        ∀ best ∈ Tuning.best? h trials, "finished with " ++ metric ++ " " ++
          Decimal.fixed 3 (Tuning.score h best) ∈ answer.log := by
    simp only [finish] at hrun
    split at hrun <;> obtain ⟨saving, -, hrun⟩ := Outcome.bind_eq_ok.1 hrun <;> cases hrun
    all_goals
      refine ⟨rfl, rfl, rfl, fun best hbest => List.mem_append_left _ (List.mem_append_right _ ?_)⟩
      exact List.mem_map.2 ⟨best, Option.mem_toList.2 hbest, rfl⟩
  split at hrun
  · next honly =>
    obtain ⟨evaluated, hevaluated, hrun⟩ := Outcome.bind_eq_ok.1 hrun
    refine ⟨h, points, _, algorithm?_of_algorithm hh,
      ⟨train, test, offset, htrain, htest, hoffset, ?_⟩, hfinish evaluated hrun⟩
    cases hevaluated
    rw [if_pos honly]
    rfl
  · next heach =>
    obtain ⟨evaluated, hevaluated, hrun⟩ := Outcome.bind_eq_ok.1 hrun
    refine ⟨h, points, _, algorithm?_of_algorithm hh,
      ⟨train, test, offset, htrain, htest, hoffset, ?_⟩, hfinish evaluated hrun⟩
    rw [if_neg heach, List.forall₂_map_right_iff]
    refine (Outcome.mapM_eq_ok_iff.1 hevaluated).imp fun point e he => ?_
    obtain ⟨⟨description, scores⟩, hscores, he⟩ := Outcome.bind_eq_ok.1 he
    cases he
    exact ⟨rfl, description, hscores⟩

/-- Every trial of a search has the scores that are recorded. -/
theorem Searches.names_of_mem {s : Settings} {folder : Folder} {draws : Draws Float}
    {h : Hypothesis} {points : List (Point Float)} {trials : List (Trial Float)}
    (hsearch : Searches s folder draws h points trials) {trial : Trial Float}
    (htrial : trial ∈ trials) : trial.scores.map (·.1) = Tuning.recorded h := by
  obtain ⟨train, test, offset, -, -, -, hsearch⟩ := hsearch
  split at hsearch
  · subst hsearch
    cases htrial
  · obtain ⟨_, -, -, description, heval⟩ := Outcome.exists_left_of_forall₂ hsearch htrial
    exact Tuning.names_of_evaluatePoint heval

end Command.Tune

open Tuning in
/-- A search evaluates its points in their order, records all trials, and reports and
keeps the one that `best?` picks.

If a trial has a score then there is a first best one.  It is picked if every trial
before it has a score.  If the trial that is evaluated first has none then that trial
is picked instead, whatever comes after it. -/
theorem search_keeps_first_best (h : Hypothesis) :
    (∀ trials : List (Trial Float), (∃ t ∈ trials, isScored h t = true) →
      ∃ before best after, trials = before ++ best :: after ∧ FirstBest h before best after) ∧
    (∀ (before : List (Trial Float)) (best : Trial Float) (after : List (Trial Float)),
      FirstBest h before best after → (∀ t ∈ before, isScored h t = true) →
        best? h (before ++ best :: after) = some best) ∧
    (∀ (first : Trial Float) (rest : List (Trial Float)), isScored h first = false →
      best? h (first :: rest) = some first) ∧
    ∀ (s : Command.Tune.Settings) (folder : Command.Folder) (pointDraws draws : Draws Float)
      (answer : Command.Tune.Answer), Command.Tune.execute s folder pointDraws draws = .ok answer →
        ∃ g points trials, Hypothesis.algorithm? s.algorithm = some g ∧
          Command.Tune.Searches s folder draws g points trials ∧
          (∀ t ∈ trials, t.scores.map (·.1) = recorded g) ∧
          answer.points = points.map Command.Tune.pointEntries ∧
          answer.record.rows =
            trials.map (Command.Tune.recordRow (Command.Tune.recordHeader g)) ∧
          answer.best = (best? g trials).map Command.Tune.trialEntries ∧
          ∀ best ∈ best? g trials, "finished with " ++ metric g ++ " " ++
            Decimal.fixed 3 (score g best) ∈ answer.log := by
  refine ⟨fun trials => exists_firstBest, fun before best after hbest hbefore => ?_,
    fun first rest hfirst => best?_of_not_isScored hfirst rest,
    fun s folder pointDraws draws answer hrun => ?_⟩
  · exact best?_eq_some (fun t ht => hbest.worse_before t ht (hbefore t ht)) hbest.not_better_after
  · obtain ⟨g, points, trials, hg, hsearch, hpoints, hrows, hbest, hlog⟩ :=
      Command.Tune.execute_eq_ok hrun
    exact ⟨g, points, trials, hg, hsearch, fun t ht => hsearch.names_of_mem ht, hpoints, hrows,
      hbest, hlog⟩

/-- Of four trials the second one is picked: the third one has no score, and the
fourth one is as good. -/
theorem search_keeps_first_best_of_four :
    let trial (x : Float) : Trial Float := ⟨[], [("RMSE", x), ("MAE", 0)]⟩
    Tuning.FirstBest .ols [trial 2] (trial 1) [trial Scalar.undefined, trial 1] ∧
      Tuning.best? .ols [trial 2, trial 1, trial Scalar.undefined, trial 1] = some (trial 1) := by
  intro trial
  have hbest : Tuning.FirstBest .ols [trial 2] (trial 1) [trial Scalar.undefined, trial 1] :=
    { scored := by decide
      worse_before := by decide
      not_better_after := by decide }
  exact ⟨hbest, (search_keeps_first_best .ols).2.1 [trial 2] (trial 1) _ hbest (by decide)⟩

/-- A trial without a score that is evaluated first is picked before one with a
score. -/
theorem search_keeps_undefined_trial :
    let trial (x : Float) : Trial Float := ⟨[], [("RMSE", x), ("MAE", x)]⟩
    let trials := [trial Scalar.undefined, trial 1]
    (∃ t ∈ trials, Tuning.isScored .ols t = true) ∧
      ∃ best, Tuning.best? .ols trials = some best ∧ Tuning.isScored .ols best = false := by
  intro trial trials
  have hfirst : Tuning.isScored .ols (trial Scalar.undefined) = false := by decide
  refine ⟨⟨trial 1, List.mem_cons_of_mem _ List.mem_cons_self, by decide⟩, ?_⟩
  exact ⟨trial Scalar.undefined, Tuning.best?_of_not_isScored hfirst _, hfirst⟩

end LatentFactors
