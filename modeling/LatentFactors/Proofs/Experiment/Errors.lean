import LatentFactors.Proofs.Evaluation.Errors
import LatentFactors.Proofs.Experiment.Predictions

/-!
# Mean errors of experiments

The mean absolute error of the scored rows is at most the root of their mean squared
error.  So it is for every user, and for the means over the users, which leave out the
same users (`Experiment.atMost_orUndefined`).

Where the test ratings are numbers, the scored rows are rated (`Experiment.Rated`):
each one has a user, a number as its prediction and a number as its rating.  So the
scores of such an experiment are numbers, once a row is scored.
-/

namespace LatentFactors

variable {K : Type} [ExactScalar K]

open OrUndefined (number AtMost)
open Evaluation (GivesNumber)

namespace Experiment

/-! ## Means over users -/

/-- The numbers that are present in two columns of which one is at most the other. -/
theorem exists_present {xs ys : List (OrUndefined K)} (h : List.Forall₂ AtMost xs ys) :
    ∃ as bs : List K, (∀ a ∈ as, 0 ≤ a) ∧ List.Forall₂ (· ≤ ·) as bs ∧
      (xs.map Column.present).filterMap id = as.map number ∧
      (ys.map Column.present).filterMap id = bs.map number := by
  induction h with
  | nil => exact ⟨[], [], nofun, .nil, rfl, rfl⟩
  | cons hxy _ ih =>
    obtain ⟨as, bs, hnonneg, hle, has, hbs⟩ := ih
    cases hxy with
    | undefined => exact ⟨as, bs, hnonneg, hle, has, hbs⟩
    | @number a b ha hab =>
      exact ⟨a :: as, b :: bs, List.forall_mem_cons.2 ⟨ha, hnonneg⟩, .cons hab hle,
        congrArg (number a :: ·) has, congrArg (number b :: ·) hbs⟩

theorem present_numbers (ys : List K) :
    ((ys.map number).map Column.present).filterMap id = ys.map number := by
  rw [List.filterMap_map, List.filterMap_map]
  exact congrFun List.filterMap_eq_map ys

theorem orUndefined_meanPresent {xs : List (Option (OrUndefined K))} {as : List K}
    (h : xs.filterMap id = as.map number) (hne : as ≠ []) :
    orUndefined (Evaluation.meanPresent xs) = number (Scalar.mean as) := by
  rw [Evaluation.meanPresent_eq, h, if_neg (List.map_eq_nil_iff.not.2 hne),
    OrUndefined.mean_number hne]
  rfl

/-- Means over users keep the order of the numbers of each user. -/
theorem atMost_orUndefined {xs ys : List (OrUndefined K)} (h : List.Forall₂ AtMost xs ys) :
    AtMost (orUndefined (Evaluation.meanPresent (xs.map Column.present)))
      (orUndefined (Evaluation.meanPresent (ys.map Column.present))) := by
  obtain ⟨as, bs, hnonneg, hle, has, hbs⟩ := exists_present h
  by_cases hnil : as = []
  · subst hnil
    cases hle
    rw [Evaluation.meanPresent_eq, Evaluation.meanPresent_eq, has, hbs]
    exact .undefined
  · have hnil' : bs ≠ [] := by
      rwa [← List.length_pos_iff, ← hle.length_eq, List.length_pos_iff]
    rw [orUndefined_meanPresent has hnil, orUndefined_meanPresent hbs hnil']
    exact .number (Scalar.mean_nonneg hnonneg) (Scalar.mean_le_mean hle)

section

variable {α : Type} [Scalar α]

/-- The metric over the rows of a user. -/
def userScore (metric : Metric α) (users : List (Option Id)) (predictions truth : Column α)
    (user : Id) : Outcome α (Id × α) := do
  let rows := rowsOf user users
  return (user, ← metric (← (predictions.pick rows).values) (← (truth.pick rows).values))

theorem userScores_eq_ok_iff {f : Frame α} {metric : Metric α} {scores : List (Id × α)} :
    Evaluation.userScores f metric = .ok scores ↔
      ∃ users predictions truth, f.users = .ok users ∧ f.column "prediction" = .ok predictions ∧
        f.column "rating" = .ok truth ∧ distinctSome users ≠ [] ∧
        (Evaluation.sortedUsers users).mapM (userScore metric users predictions truth) =
          .ok scores := by
  constructor
  · intro h
    obtain ⟨users, husers, h⟩ := Outcome.bind_eq_ok.1 h
    obtain ⟨predictions, hpredictions, h⟩ := Outcome.bind_eq_ok.1 h
    obtain ⟨truth, htruth, h⟩ := Outcome.bind_eq_ok.1 h
    split at h
    · cases h
    · next hne =>
      exact ⟨users, predictions, truth, husers, hpredictions, htruth,
        fun hnil => hne (List.isEmpty_iff.2 hnil), h⟩
  · rintro ⟨users, predictions, truth, husers, hpredictions, htruth, hne, h⟩
    refine Outcome.bind_eq_ok.2 ⟨users, husers, Outcome.bind_eq_ok.2 ⟨predictions, hpredictions,
      Outcome.bind_eq_ok.2 ⟨truth, htruth, ?_⟩⟩⟩
    rw [if_neg fun hempty => hne (List.isEmpty_iff.1 hempty)]
    exact h

end

/-! ## Scores that are measured -/

section

variable (hroot : RootLaws K) {f : Frame (OrUndefined K)} {a b : OrUndefined K}
include hroot

theorem atMost_pooled (ha : pooled f Evaluation.mae = .ok a)
    (hb : pooled f Evaluation.rmse = .ok b) : AtMost a b := by
  obtain ⟨xs, hxs, ha⟩ := Outcome.bind_eq_ok.1 ha
  obtain ⟨ts, hts, ha⟩ := Outcome.bind_eq_ok.1 ha
  rw [pooled, hxs, Outcome.bind_ok, hts, Outcome.bind_ok] at hb
  exact Evaluation.atMost_of_measured hroot ha hb

theorem atMost_userScore {users : List (Option Id)} {predictions truth : Column (OrUndefined K)}
    {user : Id} {s t : Id × OrUndefined K}
    (hs : userScore Evaluation.mae users predictions truth user = .ok s)
    (ht : userScore Evaluation.rmse users predictions truth user = .ok t) : AtMost s.2 t.2 := by
  obtain ⟨xs, hxs, hs⟩ := Outcome.bind_eq_ok.1 hs
  obtain ⟨ts, hts, hs⟩ := Outcome.bind_eq_ok.1 hs
  obtain ⟨a, ha, hs⟩ := Outcome.bind_eq_ok.1 hs
  rw [userScore, hxs, Outcome.bind_ok, hts, Outcome.bind_ok] at ht
  obtain ⟨b, hb, ht⟩ := Outcome.bind_eq_ok.1 ht
  cases hs
  cases ht
  exact Evaluation.atMost_of_measured hroot ha hb

theorem atMost_userMean (ha : userMean f Evaluation.mae = .ok a)
    (hb : userMean f Evaluation.rmse = .ok b) : AtMost a b := by
  obtain ⟨ss, hs, ha⟩ := Outcome.bind_eq_ok.1 ha
  obtain ⟨ts, ht, hb⟩ := Outcome.bind_eq_ok.1 hb
  obtain ⟨users, predictions, truth, husers, hpredictions, htruth, -, hs⟩ :=
    userScores_eq_ok_iff.1 hs
  obtain ⟨_, _, _, husers', hpredictions', htruth', -, ht⟩ := userScores_eq_ok_iff.1 ht
  cases husers.symm.trans husers'
  cases hpredictions.symm.trans hpredictions'
  cases htruth.symm.trans htruth'
  have hle : List.Forall₂ AtMost (ss.map (·.2)) (ts.map (·.2)) := by
    rw [List.forall₂_map_left_iff, List.forall₂_map_right_iff]
    exact Outcome.forall₂_of_mapM hs ht fun _ _ _ _ => atMost_userScore hroot
  have hmeans := atMost_orUndefined hle
  rw [List.map_map, List.map_map] at hmeans
  cases ha
  cases hb
  exact hmeans

/-- Whatever is measured, the mean absolute error is at most the root mean squared
error. -/
theorem atMost_of_measure {e : Experiment (OrUndefined K)} (he : e.predictsValue = true)
    {scores : Scores (OrUndefined K)} (h : e.measure f = .ok scores) :
    ∃ a b, scores = [("RMSE", b), ("MAE", a)] ∧ AtMost a b := by
  rw [measure, if_pos he] at h
  obtain ⟨b, hb, h⟩ := Outcome.bind_eq_ok.1 h
  obtain ⟨a, ha, h⟩ := Outcome.bind_eq_ok.1 h
  cases h
  refine ⟨a, b, rfl, ?_⟩
  split at hb
  · next hmean =>
    rw [if_pos hmean] at ha
    exact atMost_userMean hroot ha hb
  · next hpooled =>
    rw [if_neg hpooled] at ha
    exact atMost_pooled hroot ha hb

end

/-! ## Scores of rated frames -/

/-- A frame of which every row has a user, and a number as its prediction and as its
rating. -/
structure Rated (f : Frame (OrUndefined K)) (us : List Id) (xs ts : List K) : Prop where
  users : f.users = .ok (us.map some)
  predictions : f.values "prediction" = .ok (xs.map number)
  ratings : f.values "rating" = .ok (ts.map number)
  length_predictions : xs.length = us.length
  length_ratings : ts.length = us.length

namespace Rated

variable {f : Frame (OrUndefined K)} {us : List Id} {xs ts : List K}
  {metric : Metric (OrUndefined K)}

theorem exists_pooled (h : Rated f us xs ts) (hne : us ≠ []) (hmetric : GivesNumber metric) :
    ∃ y, pooled f metric = .ok (number y) := by
  have hxs : xs ≠ [] := by
    rwa [← List.length_pos_iff, h.length_predictions, List.length_pos_iff]
  rw [pooled, h.predictions, Outcome.bind_ok, h.ratings, Outcome.bind_ok]
  exact hmetric xs ts (h.length_predictions.trans h.length_ratings.symm) hxs

/-- Every user has rows, so the metric gives a number for the user. -/
theorem exists_userScore (h : Rated f us xs ts) (hmetric : GivesNumber metric)
    {predictions truth : Column (OrUndefined K)}
    (hpredictions : predictions.values = .ok (xs.map number))
    (htruth : truth.values = .ok (ts.map number)) {user : Id} (huser : user ∈ us) :
    ∃ y, userScore metric (us.map some) predictions truth user = .ok (user, number y) := by
  have hpicked {zs : List K} (hzs : zs.length = us.length) :
      (pickRows (rowsOf user (us.map some)) zs).length = (rowsOf user (us.map some)).length := by
    refine length_pickRows fun row hrow => ?_
    rw [hzs]
    exact (List.getElem?_eq_some_iff.1 (mem_rowsOf_map_some.1 hrow)).1
  have hrows : rowsOf user (us.map some) ≠ [] := by
    obtain ⟨row, hrow⟩ := List.mem_iff_getElem?.1 huser
    exact List.ne_nil_of_mem (mem_rowsOf_map_some.2 hrow)
  have hxs : pickRows (rowsOf user (us.map some)) xs ≠ [] := by
    rwa [← List.length_pos_iff, hpicked h.length_predictions, List.length_pos_iff]
  obtain ⟨y, hy⟩ := hmetric _ _
    ((hpicked h.length_predictions).trans (hpicked h.length_ratings).symm) hxs
  refine ⟨y, ?_⟩
  rw [userScore, Column.values_pick hpredictions, Column.values_pick htruth, pickRows_map,
    pickRows_map, Outcome.bind_ok, Outcome.bind_ok, hy]
  rfl

/-- The scores of the users are numbers, and there is one. -/
theorem exists_userScores (h : Rated f us xs ts) (hne : us ≠ []) (hmetric : GivesNumber metric) :
    ∃ scores ys, Evaluation.userScores f metric = .ok scores ∧
      scores.map (·.2) = ys.map number ∧ ys ≠ [] := by
  obtain ⟨predictions, hcolumn, hpredictions⟩ := Outcome.bind_eq_ok.1 h.predictions
  obtain ⟨truth, hcolumn', htruth⟩ := Outcome.bind_eq_ok.1 h.ratings
  have hnone : distinctSome (us.map some) ≠ [] := by
    obtain ⟨user, huser⟩ := List.exists_mem_of_ne_nil us hne
    rw [distinctSome_map_some]
    exact List.ne_nil_of_mem ((mem_distinct us).2 huser)
  have hscore : ∀ user ∈ Evaluation.sortedUsers (us.map some),
      ∃ y, userScore metric (us.map some) predictions truth user = .ok (user, number y) := by
    intro user huser
    rw [Evaluation.sortedUsers, List.mem_mergeSort, distinctSome_map_some, mem_distinct] at huser
    exact h.exists_userScore hmetric hpredictions htruth huser
  obtain ⟨scores, hscores⟩ := Outcome.exists_mapM_ok fun user huser =>
    (hscore user huser).elim fun y hy => ⟨(user, number y), hy⟩
  have hdefined : ∀ x ∈ scores.map (·.2), Scalar.isUndefined x = false := by
    rw [List.forall_mem_map]
    refine Outcome.forall_of_mapM hscores fun user huser s hs => ?_
    obtain ⟨y, hy⟩ := hscore user huser
    cases hy.symm.trans hs
    rfl
  obtain ⟨ys, hys⟩ := OrUndefined.exists_numbers hdefined
  refine ⟨scores, ys, userScores_eq_ok_iff.2 ⟨_, predictions, truth, h.users, hcolumn, hcolumn',
    hnone, hscores⟩, hys, ?_⟩
  rwa [← List.length_pos_iff, ← List.length_map (f := number), ← hys, List.length_map,
    Outcome.length_of_mapM hscores, Evaluation.sortedUsers, List.length_mergeSort,
    List.length_pos_iff]

theorem exists_userMean (h : Rated f us xs ts) (hne : us ≠ []) (hmetric : GivesNumber metric) :
    ∃ y, userMean f metric = .ok (number y) := by
  obtain ⟨scores, ys, hscores, hys, hne⟩ := h.exists_userScores hne hmetric
  have hpresent := present_numbers ys
  rw [← hys, List.map_map, hys] at hpresent
  exact ⟨Scalar.mean ys, Outcome.bind_eq_ok.2
    ⟨scores, hscores, congrArg Except.ok (orUndefined_meanPresent hpresent hne)⟩⟩

/-- What is measured of rated rows are numbers. -/
theorem exists_measure (h : Rated f us xs ts) (hne : us ≠ []) {e : Experiment (OrUndefined K)}
    (he : e.predictsValue = true) :
    ∃ a b, e.measure f = .ok [("RMSE", number b), ("MAE", number a)] := by
  have hmetric : ∀ metric, GivesNumber metric → ∃ y,
      (if e.userBased then userMean f metric else pooled f metric) = .ok (number y) := by
    intro metric hmetric
    split
    · exact h.exists_userMean hne hmetric
    · exact h.exists_pooled hne hmetric
  obtain ⟨a, ha⟩ := hmetric _ Evaluation.mae_givesNumber
  obtain ⟨b, hb⟩ := hmetric _ Evaluation.rmse_givesNumber
  refine ⟨a, b, ?_⟩
  rw [measure, if_pos he]
  refine Outcome.bind_eq_ok.2 ⟨number b, ?_, Outcome.bind_eq_ok.2 ⟨number a, ?_, rfl⟩⟩
  · rw [← hb]
    split <;> rfl
  · rw [← ha]
    split <;> rfl

theorem exists_measure_le (hroot : RootLaws K) (h : Rated f us xs ts) (hne : us ≠ [])
    {e : Experiment (OrUndefined K)} (he : e.predictsValue = true) :
    ∃ a b, e.measure f = .ok [("RMSE", number b), ("MAE", number a)] ∧ 0 ≤ a ∧ a ≤ b := by
  obtain ⟨a, b, hmeasure⟩ := h.exists_measure hne he
  obtain ⟨_, _, hsame, hle⟩ := atMost_of_measure hroot he hmeasure
  cases hsame
  cases hle with
  | number hnonneg hle => exact ⟨a, b, hmeasure, hnonneg, hle⟩

end Rated

/-! ## Rows with an estimate -/

section

variable {α : Type} [Scalar α]

theorem size_estimateColumn (ys : List (Option (Numeral α))) :
    (estimateColumn ys).size = ys.length := by
  rcases estimateColumn_cases ys with ⟨labels, rfl, hcolumn⟩ | hcolumn <;> rw [hcolumn]
  · exact (List.length_map _).symm
  · exact List.length_map _

/-- The rows that have a user, user by user. -/
def userRows (users : List (Option Id)) : List Nat :=
  (distinctSome users).flatMap fun user => rowsOf user users

omit [Scalar α] in
theorem exists_user_of_mem {users : List (Option Id)} {row : Nat} (h : row ∈ userRows users) :
    ∃ user, users[row]? = some (some user) := by
  obtain ⟨user, -, hrow⟩ := List.mem_flatMap.1 h
  exact ⟨user, mem_rowsOf.1 hrow⟩

omit [Scalar α] in
theorem lt_of_mem_userRows {users : List (Option Id)} {row : Nat} (h : row ∈ userRows users) :
    row < users.length := by
  obtain ⟨user, huser⟩ := exists_user_of_mem h
  exact (List.getElem?_eq_some_iff.1 huser).1

/-- Where a row has a user, the predictions are those of the rows with a user, each with
an estimate or without. -/
theorem exists_predicted {e : Experiment α} (hrect : e.test.Rectangular)
    {users : List (Option Id)} (husers : e.test.users = .ok users) {items : List Id}
    (hitems : e.test.ids "item" = .ok items) {r : Recommender α} {p : Frame α}
    (h : (e.predictions.run r).1 = .ok p) :
    p = e.test.assign "prediction" (.reals (List.replicate e.test.size none)) ∨
      ∃ ys, ys.length = (userRows users).length ∧
        p = (e.test.pick (userRows users)).assign "prediction" (estimateColumn ys) := by
  rw [run_predictions husers hitems] at h
  obtain ⟨groups, hgroups, h⟩ := Outcome.bind_eq_ok.1 h
  have hrows : groups.flatMap (·.1) = userRows users := rows_of_userEstimates hgroups
  cases h
  rw [withEstimates]
  split
  · exact .inl rfl
  · refine .inr ⟨groups.flatMap (·.2), ?_, by rw [hrows]⟩
    rw [← hrows, List.length_flatMap, List.length_flatMap]
    refine congrArg List.sum (List.map_congr_left ?_)
    refine Outcome.forall_of_mapM hgroups fun user _ group hgroup => ?_
    obtain ⟨ys, hys, hgroup⟩ := Outcome.bind_eq_ok.1 hgroup
    cases hgroup
    refine (Outcome.length_of_mapM hys).trans (length_pickRows fun row hrow => ?_)
    rw [hrect.length_ids hitems, ← hrect.length_users husers]
    exact (List.getElem?_eq_some_iff.1 (mem_rowsOf.1 hrow)).1

end

/-- The rows that are scored are rated. -/
theorem rated_pick_scored {p : Frame (OrUndefined K)} {us : List Id} {xs : List (OrUndefined K)}
    {ts : List K} (husers : p.users = .ok (us.map some)) (hxs : p.values "prediction" = .ok xs)
    (hts : p.values "rating" = .ok (ts.map number)) (hpredictions : xs.length = us.length)
    (hratings : ts.length = us.length) :
    let rows := places (fun x => !Scalar.isUndefined x) xs
    ∃ ys, (pickRows rows us).length = rows.length ∧
      Rated (p.pick rows) (pickRows rows us) ys (pickRows rows ts) := by
  intro rows
  have hrows : ∀ row ∈ rows, row < us.length := fun row hrow => by
    obtain ⟨x, hx, -⟩ := mem_places.1 hrow
    rw [← hpredictions]
    exact (List.getElem?_eq_some_iff.1 hx).1
  have hdefined : ∀ x ∈ pickRows rows xs, Scalar.isUndefined x = false := fun x hx => by
    rw [pickRows_places, List.mem_filter, Bool.not_eq_true'] at hx
    exact hx.2
  obtain ⟨ys, hys⟩ := OrUndefined.exists_numbers hdefined
  have hlength : ys.length = rows.length := by
    rw [← List.length_map (f := number), ← hys]
    exact length_pickRows (hpredictions ▸ hrows)
  refine ⟨ys, length_pickRows hrows, ⟨?_, ?_, ?_, ?_, ?_⟩⟩
  · rw [Frame.users_pick husers, pickRows_map]
  · rw [Frame.values_pick hxs, hys]
  · rw [Frame.values_pick hts, pickRows_map]
  · rw [hlength, length_pickRows hrows]
  · rw [length_pickRows (hratings ▸ hrows), length_pickRows hrows]

/-- Where no row has an estimate, none is scored. -/
theorem scored_missing (f : Frame (OrUndefined K)) (n : Nat) :
    scored (f.assign "prediction" (.reals (List.replicate n none))) = .ok [] := by
  have hvalues := (Frame.values_assign_self f "prediction" _).trans
    (Column.values_reals (List.replicate n none))
  rw [scored_eq hvalues, List.map_replicate]
  refine congrArg Except.ok (List.eq_nil_iff_forall_not_mem.2 fun row hrow => ?_)
  obtain ⟨x, hx, hdefined⟩ := mem_places.1 hrow
  rw [List.eq_of_mem_replicate (List.mem_of_getElem? hx)] at hdefined
  cases hdefined

/-- Where the test ratings are numbers, the rows that are scored are rated. -/
theorem exists_rated {e : Experiment (OrUndefined K)} (hrect : e.test.Rectangular)
    {users : List (Option Id)} (husers : e.test.users = .ok users) {items : List Id}
    (hitems : e.test.ids "item" = .ok items) {ratings : List (OrUndefined K)}
    (hratings : e.test.values "rating" = .ok ratings)
    (hdefined : ∀ x ∈ ratings, Scalar.isUndefined x = false) {r : Recommender (OrUndefined K)}
    {p : Frame (OrUndefined K)} (hp : (e.predictions.run r).1 = .ok p) {rows : List Nat}
    (hrows : scored p = .ok rows) (hne : rows ≠ []) :
    ∃ us xs ts, us ≠ [] ∧ Rated (p.pick rows) us xs ts := by
  obtain ⟨ts, rfl⟩ := OrUndefined.exists_numbers hdefined
  rcases exists_predicted hrect husers hitems hp with rfl | ⟨ys, hys, rfl⟩
  · cases hrows.symm.trans (scored_missing _ _)
    exact absurd rfl hne
  · obtain ⟨xs, hxs, hplaces⟩ := Outcome.bind_eq_ok.1 hrows
    cases hplaces
    obtain ⟨us, hus, hlength⟩ := exists_pickRows_eq_map_some fun _ => exists_user_of_mem
    have hsize : ∀ row ∈ userRows users, row < ts.length := fun row hrow => by
      rw [← List.length_map (f := number), hrect.length_values hratings,
        ← hrect.length_users husers]
      exact lt_of_mem_userRows hrow
    let p := (e.test.pick (userRows users)).assign "prediction" (estimateColumn ys)
    have hpusers : p.users = .ok (us.map some) := by
      rw [Frame.users_assign (by decide), Frame.users_pick husers, hus]
    have hpratings : p.values "rating" = .ok ((pickRows (userRows users) ts).map number) := by
      rw [Frame.values_assign_of_ne (by decide), Frame.values_pick hratings, pickRows_map]
    have hpredictions : xs.length = us.length := by
      rw [Frame.values_assign_self] at hxs
      rw [Column.length_values hxs, size_estimateColumn, hys, hlength]
    obtain ⟨zs, hpicked, hrated⟩ := rated_pick_scored hpusers hxs hpratings hpredictions
      ((length_pickRows hsize).trans hlength.symm)
    refine ⟨_, zs, _, ?_, hrated⟩
    rwa [← List.length_pos_iff, hpicked, List.length_pos_iff]

end Experiment

/-! ## The theorem -/

open Experiment in
/-- The mean absolute error of predictions is not negative, and it is at most the root
of their mean squared error.  Either is zero exactly where the predictions are right,
and they are the same exactly where all absolute errors are.

The scores of every experiment with numbers are in this order as well, pooled or
averaged over users, unless both are undefined.  They are numbers where the test ratings
are numbers and a row is scored. -/
theorem mae_le_rmse (hroot : RootLaws K) :
    (∀ xs ts : List K, xs.length = ts.length → xs ≠ [] →
      ∃ a b, Evaluation.mae xs ts = .ok a ∧ Evaluation.rmse xs ts = .ok b ∧ 0 ≤ a ∧ a ≤ b ∧
        (a = 0 ↔ xs = ts) ∧ (b = 0 ↔ xs = ts) ∧
        (a = b ↔ ∀ x ∈ Evaluation.absoluteErrors xs ts,
          ∀ y ∈ Evaluation.absoluteErrors xs ts, x = y)) ∧
    ∀ (e : Experiment (OrUndefined K)) (r : Recommender (OrUndefined K)), e.predictsValue = true →
      (∀ scores, (e.score.run r).1 = .ok scores →
        ∃ a b, scores = [("RMSE", b), ("MAE", a)] ∧ AtMost a b) ∧
      ∀ users items ratings p rows, e.test.Rectangular → e.test.users = .ok users →
        e.test.ids "item" = .ok items → e.test.values "rating" = .ok ratings →
        (∀ x ∈ ratings, Scalar.isUndefined x = false) → (e.predictions.run r).1 = .ok p →
        scored p = .ok rows → rows ≠ [] →
        ∃ a b : K, (e.score.run r).1 = .ok [("RMSE", number b), ("MAE", number a)] ∧
          0 ≤ a ∧ a ≤ b := by
  refine ⟨fun xs ts hlength hne => ?_, fun e r he => ?_⟩
  · have herrors := Evaluation.absoluteErrors_ne_nil hlength hne
    have hnonneg : ∀ e ∈ Evaluation.absoluteErrors xs ts, 0 ≤ e :=
      Evaluation.absoluteErrors_nonneg
    refine ⟨_, _, Evaluation.mae_eq hlength, Evaluation.rmse_eq hlength,
      Scalar.mean_nonneg hnonneg, Scalar.mean_le_rootMeanSquare hroot herrors hnonneg, ?_, ?_,
      Scalar.mean_eq_rootMeanSquare_iff hroot herrors hnonneg⟩
    · rw [Scalar.mean_eq_zero_iff herrors hnonneg, Evaluation.absoluteErrors_eq_zero_iff hlength]
    · rw [Scalar.rootMeanSquare_eq_zero_iff hroot herrors,
        Evaluation.absoluteErrors_eq_zero_iff hlength]
  · refine ⟨fun scores h => ?_, fun users items ratings p rows hrect husers hitems hratings hdefined
      hp hrows hne => ?_⟩
    · rw [fst_run_score] at h
      obtain ⟨p, -, h⟩ := Outcome.bind_eq_ok.1 h
      rw [scoreFrame] at h
      obtain ⟨rows, -, h⟩ := Outcome.bind_eq_ok.1 h
      exact atMost_of_measure hroot he h
    · obtain ⟨us, xs, ts, hus, hrated⟩ :=
        exists_rated hrect husers hitems hratings hdefined hp hrows hne
      obtain ⟨a, b, hmeasure, hle⟩ := hrated.exists_measure_le hroot hus he
      refine ⟨a, b, ?_, hle⟩
      rw [fst_run_score, hp, Outcome.bind_ok, scoreFrame, hrows, Outcome.bind_ok, hmeasure]

/-- Two predictions that are off by different amounts, and an experiment with two users
and a stranger, pooled and averaged over the users. -/
theorem mae_le_rmse_real :
    (∃ a b : ℝ, Evaluation.mae [1, 2] [0, 4] = .ok a ∧ Evaluation.rmse [1, 2] [0, 4] = .ok b ∧
      0 < a ∧ a < b) ∧
    let c : LearnerConfig (OrUndefined ℝ) := LearnerConfig.default.set .factorSize (.ofInt 0)
    let train : Frame (OrUndefined ℝ) := ⟨⟨[("user", .ints .signed [1, 2]),
      ("item", .ints .signed [7, 7]), ("rating", .ints .signed [4, 3])]⟩⟩
    let test : Frame (OrUndefined ℝ) := ⟨⟨[("user", .ints .signed [1, 2, 1, 9]),
      ("item", .ints .signed [7, 7, 7, 7]), ("rating", .ints .signed [4, 3, 2, 5])]⟩⟩
    ∃ r₀, c.recommender (.ofSource fun _ => 0) = .ok r₀ ∧
      let r := ((Recommender.prepare train []).run r₀).2
      ∀ userBased : Bool,
        let e := { Experiment.ofRecommender r true train test with userBased }
        ∃ a b : ℝ, (e.score.run r).1 = .ok [("RMSE", .number b), ("MAE", .number a)] ∧
          0 ≤ a ∧ a ≤ b := by
  refine ⟨?_, ?_⟩
  · obtain ⟨a, b, ha, hb, hnonneg, hle, hzero, -, hsame⟩ :=
      (mae_le_rmse rootLaws_real).1 [1, 2] [0, 4] rfl (List.cons_ne_nil _ _)
    refine ⟨a, b, ha, hb, hnonneg.lt_of_ne' fun h => ?_, hle.lt_of_ne fun h => ?_⟩
    · have hlists := hzero.1 h
      norm_num at hlists
    · have herrors := hsame.1 h
      norm_num [Evaluation.absoluteErrors] at herrors
  · intro c train test
    refine ⟨_, rfl, ?_⟩
    intro r
    obtain ⟨x, hx⟩ := r.exists_number_of_knownEstimate (.int 1, .int 7) (by decide +kernel)
    obtain ⟨y, hy⟩ := r.exists_number_of_knownEstimate (.int 2, .int 7) (by decide +kernel)
    have hnine : r.knownEstimate (.int 9, .int 7) = .ok none := if_neg (by decide +kernel)
    clear_value r
    intro userBased e
    have hrect : test.Rectangular := by
      unfold Frame.Rectangular
      decide
    have husers : test.ids "user" = .ok [.int 1, .int 2, .int 1, .int 9] := rfl
    have hitems : test.ids "item" = .ok [.int 7, .int 7, .int 7, .int 7] := rfl
    have hrows : groupedRows [Id.int 1, .int 2, .int 1, .int 9] = [0, 2, 1, 3] := by decide
    let found (x : ℝ) : Option (Numeral (OrUndefined ℝ)) := some (.real (.number x))
    have hys : (pickRows (groupedRows [Id.int 1, .int 2, .int 1, .int 9])
        ([Id.int 1, .int 2, .int 1, .int 9].zip [Id.int 7, .int 7, .int 7, .int 7])).mapM
          r.knownEstimate = .ok [found x, found x, found y, none] := by
      rw [hrows]
      show [(Id.int 1, Id.int 7), (.int 1, .int 7), (.int 2, .int 7), (.int 9, .int 7)].mapM
        r.knownEstimate = _
      simp only [List.mapM_cons, List.mapM_nil, hx, hy, hnine]
      rfl
    have hpredictions := Experiment.run_predictions_of_present (e := e) hrect husers (by decide)
      hitems r
    rw [hys, hrows] at hpredictions
    have hdefined : ∀ x ∈ ([4, 3, 2, 5].map fun n : Int => number (Scalar.ofInt (α := ℝ) n)),
        Scalar.isUndefined x = false :=
      List.forall_mem_map.2 fun _ _ => rfl
    exact ((mae_le_rmse rootLaws_real).2 e r rfl).2 _ _ _ _ [0, 1, 2] hrect rfl hitems rfl
      hdefined hpredictions rfl (List.cons_ne_nil _ _)

end LatentFactors
