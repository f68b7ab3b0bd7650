import LatentFactors.Proofs.Arithmetic.Rational
import LatentFactors.Proofs.Arithmetic.Undefined
import LatentFactors.Proofs.Experiment
import LatentFactors.Proofs.Frame
import LatentFactors.Proofs.Recommender.Ranking

/-!
# Every test row has its prediction

The estimates that are asked for while predicting are those of the recommender as it
is before (`Recommender.run_predictForUser`), so predicting user by user is one map over
the pairs of the grouped rows (`Experiment.run_predictions`).  The column that they are
put into holds each of them in its place (`Experiment.numerals_estimateColumn`).

The rows that are left for scoring are those with an estimate, and these are the rows
whose user and item both have factors (`Experiment.run_score`).  `Experiment.IsScored`
says what their scores are.

`predictions_keep_rows` puts these together.
-/

namespace LatentFactors

variable {α : Type} [Scalar α]

namespace Recommender

/-! ## Estimates of a recommender -/

/-- Whether the user and the item of a pair both have factors. -/
def knowsPair (r : Recommender α) (pair : Id × Id) : Bool :=
  r.store.hasFamily .userFactors pair.1 && r.store.hasFamily .itemFactors pair.2

/-- The estimate for a pair. -/
def estimateFor (r : Recommender α) (pair : Id × Id) : Outcome α (Numeral α) :=
  ((estimate pair.1 pair.2).run r).1

/-- The estimate for a pair, missing where the user or the item is unknown. -/
def knownEstimate (r : Recommender α) (pair : Id × Id) : Outcome α (Option (Numeral α)) :=
  if r.knowsPair pair then do return some (← r.estimateFor pair) else .ok none

/-- Asking for the estimate of a known user and an item in a recommender that cannot be
told apart gives the same and leaves such a recommender. -/
theorem run_known {r t : Recommender α} {user : Id}
    (huser : r.store.hasFamily .userFactors user = true) (item : Id) (h : Matches id r t) :
    let asking : RecommenderM α (Option (Numeral α)) := do
      if (← get).store.hasFamily .itemFactors item then return some (← estimate user item)
      else return none
    (asking.run t).1 = r.knownEstimate (user, item) ∧ Matches id r (asking.run t).2 := by
  intro asking
  have hitem : t.store.hasFamily .itemFactors item = r.store.hasFamily .itemFactors item := by
    obtain ⟨store, rfl, hstore⟩ := h
    exact hstore.hasFamily_eq rfl item
  unfold asking
  rw [Stateful.run_bind_of_ok (Stateful.run_get t), hitem, knownEstimate, knowsPair, huser,
    Bool.true_and]
  split
  · next hknown =>
    obtain ⟨hagree, hafter⟩ := matches_parallel.estimate user item r t h
    have hknows : Knows user [item] r := ⟨huser, fun i hi => by
      rw [List.mem_singleton.1 hi]
      exact hknown⟩
    have hkept := trans_of (Matches id)
      (estimate_keepsKnown (List.mem_singleton_self item) r hknows) hafter
    rw [estimateFor, ← hagree.eq, Stateful.run_bind]
    rcases hrun : (estimate user item).run t with ⟨e | y, u⟩ <;> rw [hrun] at hkept
    · exact ⟨rfl, hkept⟩
    · exact ⟨rfl, hkept⟩
  · exact ⟨rfl, h⟩

/-- The estimates of a user for some items are those of the pairs. -/
theorem run_predictForUser (r : Recommender α) (user : Id) (items : List Id) :
    ((predictForUser user items).run r).1 =
      items.mapM fun item => r.knownEstimate (user, item) := by
  rw [predictForUser, Stateful.run_bind_of_ok (Stateful.run_get r)]
  split
  · next huser =>
    exact Stateful.fst_run_mapM (I := Matches id r)
      (fun item _ t ht => run_known huser item ht) (refl_of (Matches id) r)
  · next huser =>
    have hnone : ∀ item, r.knownEstimate (user, item) = pure none := fun item => by
      rw [knownEstimate, knowsPair, Bool.eq_false_iff.2 huser]
      rfl
    simp only [hnone, List.mapM_pure]
    rfl

end Recommender

namespace Experiment

open Recommender (Matches)

/-! ## Predictions -/

/-- The rows of a user with their estimates. -/
def userEstimates (r : Recommender α) (users : List (Option Id)) (items : List Id) (user : Id) :
    Outcome α (List Nat × List (Option (Numeral α))) := do
  let rows := rowsOf user users
  return (rows, ← (pickRows rows items).mapM fun item => r.knownEstimate (user, item))

/-- The test rows with the estimates of each user. -/
def withEstimates (e : Experiment α) (groups : List (List Nat × List (Option (Numeral α)))) :
    Frame α :=
  if groups.isEmpty then e.test.assign "prediction" (.reals (List.replicate e.test.size none))
  else (e.test.pick (groups.flatMap (·.1))).assign "prediction"
    (estimateColumn (groups.flatMap (·.2)))

/-- A user's rows are predicted in any recommender that cannot be told apart with the
same estimates, which leaves such a recommender. -/
theorem run_group {e : Experiment α} {items : List Id} (hitems : e.test.ids "item" = .ok items)
    {r t : Recommender α} (h : Matches id r t) (users : List (Option Id)) (user : Id) :
    let rows := rowsOf user users
    let group : RecommenderM α (List Nat × List (Option (Numeral α))) := do
      let items ← Recommender.lift (e.test.ids "item")
      return (rows, ← Recommender.predictForUser user (pickRows rows items))
    (group.run t).1 = userEstimates r users items user ∧ Matches id r (group.run t).2 := by
  intro rows group
  have hlift : (Recommender.lift (e.test.ids "item")).run t = (.ok items, t) := by
    rw [hitems]
    rfl
  obtain ⟨hagree, hafter⟩ :=
    Recommender.matches_parallel.predictForUser user (pickRows rows items) r t h
  have hkept := trans_of (Matches id) (Recommender.predictForUser_leaves user _ r) hafter
  unfold group
  rw [Stateful.run_bind_of_ok hlift, Stateful.fst_run_bind_pure, Stateful.snd_run_bind_pure,
    hagree.eq, Recommender.run_predictForUser]
  exact ⟨rfl, hkept⟩

/-- Predicting is one map over the users, which asks the recommender as it is before. -/
theorem run_predictions {e : Experiment α} {users : List (Option Id)} {items : List Id}
    (husers : e.test.users = .ok users) (hitems : e.test.ids "item" = .ok items)
    (r : Recommender α) : (e.predictions.run r).1 = (do
      return e.withEstimates (← (distinctSome users).mapM (userEstimates r users items))) := by
  have hgroups := Stateful.fst_run_mapM (I := Matches id r)
    (fun user (_ : user ∈ distinctSome users) t ht => run_group hitems ht users user)
    (refl_of (Matches id) r)
  have hlift : (Recommender.lift e.test.users).run r = (.ok users, r) := by
    rw [husers]
    rfl
  rw [predictions, Stateful.run_bind_of_ok hlift, Stateful.run_bind]
  split
  · next groups t hrun =>
    rw [hrun] at hgroups
    rw [← hgroups, Outcome.bind_ok, withEstimates]
    split <;> rfl
  · next fault t hrun =>
    rw [hrun] at hgroups
    rw [← hgroups]
    rfl

theorem rows_of_userEstimates {r : Recommender α} {users : List (Option Id)} {items : List Id}
    {groups : List (List Nat × List (Option (Numeral α)))} {distinctUsers : List Id}
    (h : distinctUsers.mapM (userEstimates r users items) = .ok groups) :
    groups.flatMap (·.1) = distinctUsers.flatMap fun user => rowsOf user users := by
  rw [List.flatMap_def, List.flatMap_def]
  refine congrArg List.flatten (Outcome.map_eq_of_mapM h fun user group hgroup => ?_)
  obtain ⟨ys, -, hgroup⟩ := Outcome.bind_eq_ok.1 hgroup
  cases hgroup
  rfl

/-- The estimates user by user are those of the pairs in the grouped rows. -/
theorem mapM_groupedRows (r : Recommender α) (users items : List Id) :
    (pickRows (groupedRows users) (users.zip items)).mapM r.knownEstimate = (do
      let groups ← (distinct users).mapM (userEstimates r (users.map some) items)
      return groups.flatMap (·.2)) := by
  have hsnd := Outcome.mapM_bind_pure (userEstimates r (users.map some) items) (·.2)
    (distinct users)
  simp only [userEstimates, bind_assoc, pure_bind, bind_pure] at hsnd
  rw [groupedRows, pickRows_flatMap, Outcome.mapM_flatMap]
  simp only [pickRows_rowsOf_zip, List.mapM_map, Function.comp_def, hsnd, bind_assoc, pure_bind,
    List.flatMap_def]

/-- The test rows with their estimates: user by user, the users in the order of first
appearance and the rows of a user in their own. -/
theorem run_predictions_of_present {e : Experiment α} (hrect : e.test.Rectangular)
    {users items : List Id} (husers : e.test.ids "user" = .ok users)
    (hpresent : ∀ user ∈ users, user.isPresent = true) (hitems : e.test.ids "item" = .ok items)
    (r : Recommender α) : (e.predictions.run r).1 = (do
      let ys ← (pickRows (groupedRows users) (users.zip items)).mapM r.knownEstimate
      return (e.test.pick (groupedRows users)).assign "prediction" (estimateColumn ys)) := by
  rw [run_predictions (Frame.users_of_present husers hpresent) hitems, distinctSome_map_some,
    mapM_groupedRows]
  cases hgroups : (distinct users).mapM (userEstimates r (users.map some) items) with
  | error fault => rfl
  | ok groups =>
    have hrows : groups.flatMap (·.1) = groupedRows users := rows_of_userEstimates hgroups
    rw [Outcome.bind_ok, Outcome.bind_ok, withEstimates, ← hrows]
    split
    · next hempty =>
      -- Without groups there are no rows, and nothing is left out by picking none.
      rw [List.isEmpty_iff] at hempty
      subst hempty
      have hnone : e.test.size = 0 := by
        rw [← hrect.length_ids husers, ← List.length_range (n := users.length),
          ← (groupedRows_perm users).length_eq, ← hrows]
        rfl
      rw [hnone, List.flatMap_nil, List.flatMap_nil, hrect.pick_nil hnone]
      rfl
    · rfl

/-! ## The column of estimates -/

omit [Scalar α] in
/-- If nothing is left out, then what is read off can be put back. -/
theorem map_filterMap_of_length {β γ : Type} {f : β → Option γ} {g : γ → β} {xs : List β}
    (h : (xs.filterMap f).length = xs.length) (hg : ∀ x y, f x = some y → g y = x) :
    (xs.filterMap f).map g = xs := by
  rw [List.filterMap_length_eq_length] at h
  rw [List.map_filterMap]
  refine (List.filterMap_congr fun x hx => ?_).trans List.filterMap_some
  obtain ⟨y, hy⟩ := Option.isSome_iff_exists.1 (h x hx)
  rw [hy, Option.map_some, hg x y hy]

/-- Estimates that are all labels are a column of integers, and others are a column of
numbers, with those that are undefined or missing as missing. -/
theorem estimateColumn_cases (ys : List (Option (Numeral α))) :
    (∃ labels : List Int, ys = labels.map (fun n => some (.integer n)) ∧
      estimateColumn ys = .ints .signed labels) ∨
    estimateColumn ys = .reals (ys.map fun y => y.bind fun y => Column.present y.value) := by
  rw [estimateColumn]
  split
  · next hall =>
    rw [Bool.and_eq_true, decide_eq_true_eq] at hall
    refine .inl ⟨_, (map_filterMap_of_length hall.2 fun y n hn => ?_).symm, rfl⟩
    split at hn
    · cases hn
      rfl
    · cases hn
  · exact .inr rfl

/-- What an entry of the column holds for an estimate: its value, and an undefined
number if it is undefined or missing. -/
def Holds (estimate : Option (Numeral α)) (entry : Numeral α) : Prop :=
  match estimate with
  | none => Scalar.isUndefined entry.value = true
  | some y =>
    entry.value = y.value ∨
      Scalar.isUndefined y.value = true ∧ Scalar.isUndefined entry.value = true

/-- Every estimate is in the column, in its place. -/
theorem numerals_estimateColumn [UndefinedLaws α] (ys : List (Option (Numeral α))) :
    ∃ entries, (estimateColumn ys).numerals = .ok entries ∧ List.Forall₂ Holds ys entries := by
  rcases estimateColumn_cases ys with ⟨labels, rfl, hcolumn⟩ | hcolumn <;> rw [hcolumn]
  · refine ⟨labels.map .integer, rfl, ?_⟩
    rw [List.forall₂_map_left_iff, List.forall₂_map_right_iff, List.forall₂_same]
    exact fun n _ => .inl rfl
  · refine ⟨_, rfl, ?_⟩
    rw [List.map_map, List.forall₂_map_right_iff, List.forall₂_same]
    intro y _
    have hundefined : Scalar.isUndefined (Scalar.undefined : α) = true :=
      UndefinedLaws.isUndefined_undefined
    rcases y with _ | y
    · exact hundefined
    · rw [Function.comp_apply, Option.bind_some, Column.present]
      split
      · next hy => exact .inr ⟨hy, hundefined⟩
      · exact .inl rfl

/-! ## The rows that are scored -/

/-- A number to compute with that is not undefined. -/
def Defined (y : Numeral α) : Prop := ∃ x, Outcome.real y = .ok x ∧ Scalar.isUndefined x = false

theorem value_of_real {y : Numeral α} {x : α} (h : Outcome.real y = .ok x) : y.value = x := by
  rw [Outcome.real] at h
  split at h
  · next x' hx =>
    cases h
    cases y with
    | integer n =>
      rw [Numeral.value?] at hx
      split at hx
      · exact Option.some.inj hx
      · cases hx
    | real x => exact Option.some.inj hx
  · cases h

theorem present_of_defined {y : Numeral α} (h : Defined y) :
    Column.present y.value = some y.value := by
  obtain ⟨x, hx, hdefined⟩ := h
  rw [value_of_real hx, Column.present, hdefined]
  rfl

/-- A column that holds some numbers: integers, or their values. -/
def Shows (c : Column α) (ys : List (Numeral α)) : Prop :=
  (∃ labels : List Int, ys = labels.map .integer ∧ c = .ints .signed labels) ∨
    c = .reals (ys.map fun y => some y.value)

/-- What is computed with are the values of the numbers. -/
theorem Shows.values {c : Column α} {ys : List (Numeral α)} (h : Shows c ys)
    (hys : ∀ y ∈ ys, Defined y) : c.values = .ok (ys.map Numeral.value) := by
  have hreal : ys.mapM Outcome.real = .ok (ys.map Numeral.value) := by
    rw [Outcome.mapM_eq_ok_iff, List.forall₂_map_right_iff, List.forall₂_same]
    intro y hy
    obtain ⟨x, hx, -⟩ := hys y hy
    rw [hx, value_of_real hx]
  rcases h with ⟨labels, rfl, rfl⟩ | rfl
  · exact hreal
  · rw [Column.values_reals, List.map_map]
    rfl

theorem isUndefined_of_defined {y : Numeral α} (h : Defined y) :
    Scalar.isUndefined y.value = false := by
  obtain ⟨x, hx, hdefined⟩ := h
  rwa [value_of_real hx]

/-- The values in the column of estimates are undefined where an estimate is
missing. -/
theorem values_estimateColumn [UndefinedLaws α] {ys : List (Option (Numeral α))}
    (hys : ∀ y, some y ∈ ys → Defined y) :
    ∃ xs, (estimateColumn ys).values = .ok xs ∧
      xs.map (fun x => !Scalar.isUndefined x) = ys.map Option.isSome := by
  rcases estimateColumn_cases ys with ⟨labels, rfl, hcolumn⟩ | hcolumn <;> rw [hcolumn]
  · have hlabels : ∀ y ∈ labels.map (Numeral.integer (α := α)), Defined y := by
      rintro y hy
      obtain ⟨n, hn, rfl⟩ := List.mem_map.1 hy
      exact hys _ (List.mem_map_of_mem hn)
    refine ⟨_, Shows.values (.inl ⟨labels, rfl, rfl⟩) hlabels, ?_⟩
    rw [List.map_map, List.map_map, List.map_map]
    refine List.map_congr_left fun n hn => ?_
    have hdefined := isUndefined_of_defined (hlabels _ (List.mem_map_of_mem hn))
    simp only [Function.comp_apply, hdefined]
    rfl
  · refine ⟨_, Column.values_reals _, ?_⟩
    rw [List.map_map, List.map_map]
    refine List.map_congr_left fun y hy => ?_
    rcases y with _ | y
    · have hundefined : Scalar.isUndefined (Scalar.undefined : α) = true :=
        UndefinedLaws.isUndefined_undefined
      simp [hundefined]
    · have hdefined := hys y hy
      simp [present_of_defined hdefined, isUndefined_of_defined hdefined]

/-- The rows are scored of which the prediction is not undefined. -/
theorem scored_eq {f : Frame α} {xs : List α} (h : f.values "prediction" = .ok xs) :
    scored f = .ok (places (fun x => !Scalar.isUndefined x) xs) :=
  Outcome.bind_eq_ok.2 ⟨xs, h, rfl⟩

/-- The rows with an estimate are scored. -/
theorem scored_estimates [UndefinedLaws α] (f : Frame α) {ys : List (Option (Numeral α))}
    (hys : ∀ y, some y ∈ ys → Defined y) :
    scored (f.assign "prediction" (estimateColumn ys)) = .ok (places Option.isSome ys) := by
  obtain ⟨xs, hxs, hsame⟩ := values_estimateColumn hys
  rw [← places_congr hsame]
  exact scored_eq ((Frame.values_assign_self f _ _).trans hxs)

/-- The scored entries of the column of estimates hold the estimates that are there. -/
theorem shows_pick_estimateColumn {ys : List (Option (Numeral α))}
    (hys : ∀ y, some y ∈ ys → Defined y) :
    Shows ((estimateColumn ys).pick (places Option.isSome ys)) (ys.filterMap id) := by
  rcases estimateColumn_cases ys with ⟨labels, rfl, hcolumn⟩ | hcolumn <;> rw [hcolumn]
  · refine .inl ⟨labels, ?_, congrArg (Column.ints .signed) ?_⟩
    · rw [List.filterMap_map]
      exact congrFun List.filterMap_eq_map labels
    · rw [places_map, pickRows_places, List.filter_eq_self]
      exact fun _ _ => rfl
  · refine .inr (congrArg Column.reals ?_)
    have hthere : (ys.filterMap id).map some = (ys.map id).filter Option.isSome :=
      List.map_filterMap_some_eq_filter_map_isSome
    rw [List.map_id] at hthere
    rw [pickRows_map, pickRows_places, ← hthere, List.map_map]
    refine List.map_congr_left fun y hy => ?_
    obtain ⟨_, hmem, rfl⟩ := List.mem_filterMap.1 hy
    exact present_of_defined (hys y hmem)

/-- The scores of a frame of which every row has an estimate.  RMSE and MAE compare the
predictions with the ratings, over all rows or as means over the users for whom they are
defined.  Precision and recall are means over the classes for which they are defined. -/
structure IsScored (e : Experiment α) (f : Frame α) (outcome : Outcome α (Scores α)) : Prop where
  pooled : e.predictsValue = true → e.userBased = false → outcome = (do
    let predictions ← f.values "prediction"
    let ratings ← f.values "rating"
    return [("RMSE", ← Evaluation.rmse predictions ratings),
      ("MAE", ← Evaluation.mae predictions ratings)])
  byUser : e.predictsValue = true → e.userBased = true → outcome = (do
    let mean (scores : List (Id × α)) : α :=
      (Evaluation.meanPresent (scores.map fun s => Column.present s.2)).getD Scalar.undefined
    return [("RMSE", mean (← Evaluation.userScores f Evaluation.rmse)),
      ("MAE", mean (← Evaluation.userScores f Evaluation.mae))])
  byClass : e.predictsValue = false → outcome = (do
    let scores ← Evaluation.classScores f e.classes
    return [
      ("precision", (Evaluation.meanPresent (scores.map (·.precisionMean))).getD Scalar.undefined),
      ("recall", (Evaluation.meanPresent (scores.map (·.recallMean))).getD Scalar.undefined)])

theorem isScored_measure (e : Experiment α) (f : Frame α) : e.IsScored f (e.measure f) := by
  refine ⟨fun hvalue hpooled => ?_, fun hvalue huser => ?_, fun hclass => ?_⟩
  · rw [measure, if_pos hvalue, hpooled]
    unfold Experiment.pooled
    cases f.values "prediction" with
    | error fault => rfl
    | ok predictions =>
      cases f.values "rating" with
      | error fault => rfl
      | ok ratings => rfl
  · rw [measure, if_pos hvalue, huser]
    unfold userMean orUndefined
    simp only [if_true, bind_assoc, pure_bind]
  · rw [measure, hclass]
    rfl

theorem fst_run_score (e : Experiment α) (r : Recommender α) :
    (e.score.run r).1 = (do e.scoreFrame (← (e.predictions.run r).1)) := by
  rw [score, Stateful.run_bind]
  rcases e.predictions.run r with ⟨fault | f, t⟩ <;> rfl

/-- The rows of which the user and the item both have factors. -/
def knownRows (r : Recommender α) (pairs : List (Id × Id)) (rows : List Nat) : List Nat :=
  rows.filter fun row => pairs[row]?.any r.knowsPair

theorem isSome_of_knownEstimate {r : Recommender α} {pair : Id × Id} {y : Option (Numeral α)}
    (h : r.knownEstimate pair = .ok y) : y.isSome = r.knowsPair pair := by
  rw [Recommender.knownEstimate] at h
  split at h
  · next hknown =>
    obtain ⟨x, -, hx⟩ := Outcome.bind_eq_ok.1 h
    cases hx
    exact hknown.symm
  · next hnot =>
    cases h
    exact (Bool.eq_false_iff.2 hnot).symm

/-- The estimates that are there are those of the pairs that are known. -/
theorem mapM_estimateFor {r : Recommender α} {pairs : List (Id × Id)}
    {ys : List (Option (Numeral α))} (h : pairs.mapM r.knownEstimate = .ok ys) :
    (pairs.filter r.knowsPair).mapM r.estimateFor = .ok (ys.filterMap id) := by
  rw [Outcome.mapM_eq_ok_iff] at h ⊢
  induction h with
  | nil => exact .nil
  | @cons pair y _ _ hy _ ih =>
    rw [Recommender.knownEstimate] at hy
    split at hy
    · next hknown =>
      obtain ⟨x, hx, hsome⟩ := Outcome.bind_eq_ok.1 hy
      cases hsome
      rw [List.filter_cons_of_pos hknown]
      exact .cons hx ih
    · next hnot =>
      cases hy
      rw [List.filter_cons_of_neg hnot]
      exact ih

/-- The scored places are those of the known rows. -/
theorem pickRows_scored {r : Recommender α} {pairs : List (Id × Id)} {rows : List Nat}
    (hrows : ∀ row ∈ rows, row < pairs.length) {ys : List (Option (Numeral α))}
    (h : (pickRows rows pairs).mapM r.knownEstimate = .ok ys) :
    pickRows (places Option.isSome ys) rows = knownRows r pairs rows := by
  have hys : ys.map Option.isSome = (pickRows rows pairs).map r.knowsPair :=
    Outcome.map_eq_of_mapM h fun _ _ => isSome_of_knownEstimate
  have hpairs : (pickRows rows pairs).map r.knowsPair =
      rows.map fun row => pairs[row]?.any r.knowsPair := by
    rw [← List.forall₂_eq_eq_eq, List.forall₂_map_left_iff, List.forall₂_map_right_iff]
    refine (List.Forall₂.flip (forall₂_pickRows hrows)).imp fun pair row hpair => ?_
    rw [hpair, Option.any_some]
  rw [places_congr (hys.trans hpairs), pickRows_places]
  rfl

theorem run_score [UndefinedLaws α] {e : Experiment α} (hrect : e.test.Rectangular)
    {users items : List Id} (husers : e.test.ids "user" = .ok users)
    (hpresent : ∀ user ∈ users, user.isPresent = true) (hitems : e.test.ids "item" = .ok items)
    {r : Recommender α} {ys : List (Option (Numeral α))}
    (h : (pickRows (groupedRows users) (users.zip items)).mapM r.knownEstimate = .ok ys)
    (hys : ∀ y, some y ∈ ys → Defined y) :
    (e.score.run r).1 = e.measure ((e.test.pick
      (knownRows r (users.zip items) (groupedRows users))).assign "prediction"
        ((estimateColumn ys).pick (places Option.isSome ys))) := by
  have hrows : ∀ row ∈ groupedRows users, row < (users.zip items).length := fun row hrow => by
    rw [List.length_zip, hrect.length_ids husers, hrect.length_ids hitems, Nat.min_self,
      ← hrect.length_ids husers]
    exact lt_of_mem_groupedRows hrow
  have hsize : ∀ row ∈ groupedRows users, row < e.test.size := fun row hrow => by
    rw [← hrect.length_ids husers]
    exact lt_of_mem_groupedRows hrow
  rw [fst_run_score, run_predictions_of_present hrect husers hpresent hitems, h, Outcome.bind_ok,
    Outcome.pure_eq_ok, Outcome.bind_ok, scoreFrame, scored_estimates _ hys, Outcome.bind_ok,
    Frame.pick_assign, hrect.pick_pick hsize, pickRows_scored hrows h]

end Experiment

/-! ## Estimates that are there -/

namespace Recommender

theorem estimateFor_eq (r : Recommender α) (pair : Id × Id) : r.estimateFor pair = (do
    r.strategy.estimate (← ((r.learner.predictFull pair.1 pair.2).run r.store).1) r.target) := by
  have hpredicted : ((predictAll pair.1 pair.2).run r).1 =
      ((r.learner.predictFull pair.1 pair.2).run r.store).1 := rfl
  rw [estimateFor, estimate, Stateful.run_bind_of_ok (Stateful.run_get r), Stateful.run_bind,
    ← hpredicted]
  rcases (predictAll pair.1 pair.2).run r with ⟨fault | distribution, t⟩ <;> rfl

/-- A recommender of a typed and sized configuration has an estimate for every pair,
unless it has to choose a class and there is none to choose from. -/
theorem exists_estimateFor {c : LearnerConfig α} (htyped : c.Typed) (hsized : c.Sized)
    {draws : Draws α} {r₀ r : Recommender α} (hr : c.recommender draws = .ok r₀)
    (h : Evolves r₀ r) (hclasses : r.strategy = .targetScore ∨ r.store.shape.classCount ≠ 1)
    (pair : Id × Id) : ∃ y, r.estimateFor pair = .ok y := by
  rw [estimateFor_eq]
  cases hstrategy : r.strategy with
  | targetScore =>
    obtain ⟨x, hx⟩ := exists_score htyped hsized hr h pair.1 pair.2
    obtain ⟨distribution, hpredicted, hscore⟩ := Outcome.bind_eq_ok.1 hx
    exact ⟨.real x, Outcome.bind_eq_ok.2 ⟨distribution, hpredicted,
      Outcome.bind_eq_ok.2 ⟨x, hscore, rfl⟩⟩⟩
  | mostProbable =>
    obtain ⟨kind, hlearner, hadmits, hwell, hreadable, -⟩ := ready_of_evolves htyped hsized hr h
    obtain ⟨distribution, hpredicted, hlength⟩ :=
      Learner.exists_predictFull hwell hreadable (c.requireScope_learner kind) hadmits
        pair.1 pair.2
    have hmany : distribution.length ≠ 1 := fun hone => by
      rw [hstrategy, ← hlength, hone] at hclasses
      exact hclasses.elim nofun fun hne => hne rfl
    have hpos := r.store.shape.classCount_pos
    rw [← hlearner] at hpredicted
    obtain ⟨y, hy⟩ : ∃ y, Strategy.mostProbable.estimate distribution r.target = .ok y := by
      obtain ⟨x, rest, rfl⟩ := List.exists_cons_of_length_pos (l := distribution) (by omega)
      rw [Strategy.estimate, if_neg hmany]
      exact ⟨_, rfl⟩
    exact ⟨y, Outcome.bind_eq_ok.2 ⟨distribution, hpredicted, hy⟩⟩

/-- An estimate that turns out as a number. -/
theorem exists_number_of_knownEstimate {K : Type} [ExactScalar K]
    (r : Recommender (OrUndefined K)) (pair : Id × Id)
    (h : (match r.knownEstimate pair with
      | .ok (some (.real (.number _))) => true
      | _ => false) = true) : ∃ x : K, r.knownEstimate pair = .ok (some (.real (.number x))) := by
  split at h
  · next x hx => exact ⟨x, hx⟩
  · cases h

end Recommender

/-! ## The theorem -/

open Experiment in
/-- The predictions of an experiment hold every test row once, with what its columns
have there: user by user, the users in the order in which they appear first and the
rows of a user in their own order.  A row has the estimate for its user and item if
both have factors, and is missing otherwise.

The equation of the predictions says also where they fail: where an estimate for a
known pair does.  That never happens in a recommender of a typed and sized
configuration, unless it has to choose a class where there are none.

If no estimate is undefined then the scores are the configured metric of exactly the rows
whose user and item both have factors: with what the columns of the test frame have there,
and with their estimates as predictions. -/
theorem predictions_keep_rows [UndefinedLaws α] {e : Experiment α} (hrect : e.test.Rectangular)
    {users items : List Id} (husers : e.test.ids "user" = .ok users)
    (hpresent : ∀ user ∈ users, user.isPresent = true) (hitems : e.test.ids "item" = .ok items)
    (r : Recommender α) :
    let rows := groupedRows users
    let pairs := users.zip items
    rows.Perm (List.range e.test.size) ∧
    (rows.Pairwise fun i j => ∀ u v, users[i]? = some u → users[j]? = some v →
      firstPlace users u < firstPlace users v ∨ u = v ∧ i < j) ∧
    (e.predictions.run r).1 = (do
      let ys ← (pickRows rows pairs).mapM r.knownEstimate
      return (e.test.pick rows).assign "prediction" (estimateColumn ys)) ∧
    (∀ ys, (pickRows rows pairs).mapM r.knownEstimate = .ok ys →
      let predictions := (e.test.pick rows).assign "prediction" (estimateColumn ys)
      (∀ name c, name ≠ "prediction" → e.test.column name = .ok c →
        predictions.column name = .ok (c.pick rows)) ∧
      (∃ entries, predictions.numerals "prediction" = .ok entries ∧
        List.Forall₂ Holds ys entries) ∧
      ((∀ y, some y ∈ ys → Defined y) →
        let estimates := ys.filterMap id
        let known := knownRows r pairs rows
        ((pickRows rows pairs).filter r.knowsPair).mapM r.estimateFor = .ok estimates ∧
        ∃ column, Shows column estimates ∧
          let scored := (e.test.pick known).assign "prediction" column
          (∀ name c, name ≠ "prediction" → e.test.column name = .ok c →
            scored.column name = .ok (c.pick known)) ∧
          scored.values "prediction" = .ok (estimates.map Numeral.value) ∧
          e.IsScored scored (e.score.run r).1)) ∧
    ∀ (c : LearnerConfig α) (draws : Draws α) (r₀ : Recommender α), c.Typed → c.Sized →
      c.recommender draws = .ok r₀ → Recommender.Evolves r₀ r →
      r.strategy = .targetScore ∨ r.store.shape.classCount ≠ 1 →
      ∃ ys, (pickRows rows pairs).mapM r.knownEstimate = .ok ys := by
  intro rows pairs
  refine ⟨?_, pairwise_groupedRows users,
    run_predictions_of_present hrect husers hpresent hitems r,
    fun ys hys => ?_, fun c draws r₀ htyped hsized hr hevolves hclasses => ?_⟩
  · rw [← hrect.length_ids husers]
    exact groupedRows_perm users
  · have hcolumns (rows : List Nat) (column : Column α) (name : String) (c : Column α)
        (hname : name ≠ "prediction") (hc : e.test.column name = .ok c) :
        ((e.test.pick rows).assign "prediction" column).column name = .ok (c.pick rows) := by
      rw [Frame.column_assign_of_ne hname]
      exact Frame.column_pick hc rows
    refine ⟨hcolumns _ _, ?_, fun hdefined => ⟨mapM_estimateFor hys, _,
      shows_pick_estimateColumn hdefined, hcolumns _ _, ?_, ?_⟩⟩
    · obtain ⟨entries, hentries, hholds⟩ := numerals_estimateColumn ys
      exact ⟨entries, Outcome.bind_eq_ok.2 ⟨_, Frame.column_assign_self _ _ _, hentries⟩, hholds⟩
    · rw [Frame.values_assign_self]
      refine (shows_pick_estimateColumn hdefined).values fun y hy => hdefined y ?_
      obtain ⟨_, hmem, rfl⟩ := List.mem_filterMap.1 hy
      exact hmem
    · rw [run_score hrect husers hpresent hitems hys hdefined]
      exact isScored_measure e _
  · refine Outcome.exists_mapM_ok fun pair _ => ?_
    rw [Recommender.knownEstimate]
    split
    · obtain ⟨y, hy⟩ := Recommender.exists_estimateFor htyped hsized hr hevolves hclasses pair
      exact ⟨some y, Outcome.bind_eq_ok.2 ⟨y, hy, rfl⟩⟩
    · exact ⟨none, rfl⟩

/-- A user with three rows, two of them with the same item and one with an unknown one,
another user in between and a stranger. -/
theorem predictions_keep_rows_of_strangers :
    let c : LearnerConfig (OrUndefined ℚ) := LearnerConfig.default.set .factorSize (.ofInt 0)
    let train : Frame (OrUndefined ℚ) := ⟨⟨[("user", .ints .signed [1, 2]),
      ("item", .ints .signed [7, 7]), ("rating", .ints .signed [4, 3])]⟩⟩
    let test : Frame (OrUndefined ℚ) := ⟨⟨[("user", .ints .signed [1, 2, 1, 9, 1]),
      ("item", .ints .signed [7, 7, 7, 7, 8]), ("rating", .ints .signed [4, 3, 2, 5, 1])]⟩⟩
    ∃ r₀, c.recommender (.ofSource fun _ => 0) = .ok r₀ ∧
      let r := ((Recommender.prepare train []).run r₀).2
      let e := Experiment.ofRecommender r true train test
      ∃ x y : ℚ, (e.predictions.run r).1 = .ok ((test.pick [0, 2, 4, 1, 3]).assign "prediction"
          (.reals [some (.number x), some (.number x), none, some (.number y), none])) ∧
        (e.score.run r).1 = (do
          let predictions := [.number x, .number x, .number y]
          let ratings := [Scalar.ofInt 4, Scalar.ofInt 2, Scalar.ofInt 3]
          return [("RMSE", ← Evaluation.rmse predictions ratings),
            ("MAE", ← Evaluation.mae predictions ratings)]) := by
  intro c train test
  refine ⟨_, rfl, ?_⟩
  intro r
  obtain ⟨x, hx⟩ := r.exists_number_of_knownEstimate (.int 1, .int 7) (by decide +kernel)
  obtain ⟨y, hy⟩ := r.exists_number_of_knownEstimate (.int 2, .int 7) (by decide +kernel)
  have hitem : r.knownEstimate (.int 1, .int 8) = .ok none := if_neg (by decide +kernel)
  have huser : r.knownEstimate (.int 9, .int 7) = .ok none := if_neg (by decide +kernel)
  clear_value r
  intro e
  have hrect : test.Rectangular := by
    unfold Frame.Rectangular
    decide
  have husers : test.ids "user" = .ok [.int 1, .int 2, .int 1, .int 9, .int 1] := rfl
  have hitems : test.ids "item" = .ok [.int 7, .int 7, .int 7, .int 7, .int 8] := rfl
  have hrows : groupedRows [Id.int 1, .int 2, .int 1, .int 9, .int 1] = [0, 2, 4, 1, 3] := by decide
  obtain ⟨-, -, hpredictions, hall, -⟩ :=
    predictions_keep_rows (e := e) hrect husers (by decide) hitems r
  have hpairs : [Id.int 1, .int 2, .int 1, .int 9, .int 1].zip
      [Id.int 7, .int 7, .int 7, .int 7, .int 8] = [(.int 1, .int 7), (.int 2, .int 7),
        (.int 1, .int 7), (.int 9, .int 7), (.int 1, .int 8)] := rfl
  rw [hrows, hpairs] at hpredictions hall
  let found (x : ℚ) : Option (Numeral (OrUndefined ℚ)) := some (.real (.number x))
  have hys : (pickRows [0, 2, 4, 1, 3] [(Id.int 1, Id.int 7), (.int 2, .int 7), (.int 1, .int 7),
      (.int 9, .int 7), (.int 1, .int 8)]).mapM r.knownEstimate =
        .ok [found x, found x, none, found y, none] := by
    show [(Id.int 1, Id.int 7), (.int 1, .int 7), (.int 1, .int 8), (.int 2, .int 7),
      (.int 9, .int 7)].mapM r.knownEstimate = _
    simp only [List.mapM_cons, List.mapM_nil, hx, hy, hitem, huser]
    rfl
  have hknown : Experiment.knownRows r [(Id.int 1, Id.int 7), (.int 2, .int 7), (.int 1, .int 7),
      (.int 9, .int 7), (.int 1, .int 8)] [0, 2, 4, 1, 3] = [0, 2, 1] := by
    simp [Experiment.knownRows, ← Experiment.isSome_of_knownEstimate hx,
      ← Experiment.isSome_of_knownEstimate hy, ← Experiment.isSome_of_knownEstimate hitem,
      ← Experiment.isSome_of_knownEstimate huser]
  have hdefined : ∀ z, some z ∈ [found x, found x, none, found y, none] → Experiment.Defined z := by
    simp only [List.mem_cons, List.not_mem_nil, found, Option.some.injEq, reduceCtorEq, false_or,
      or_false]
    rintro _ (rfl | rfl | rfl) <;> exact ⟨_, rfl, rfl⟩
  refine ⟨x, y, hpredictions.trans ((congrArg (· >>= _) hys).trans rfl), ?_⟩
  obtain ⟨-, -, hscore⟩ := hall _ hys
  obtain ⟨-, column, -, hcolumns, hvalues, hscored⟩ := hscore hdefined
  have hratings := hcolumns "rating" _ (by decide) rfl
  rw [hknown] at hvalues hratings hscored
  rw [hscored.pooled rfl rfl, hvalues, Outcome.bind_ok, Frame.values, hratings]
  rfl

end LatentFactors
