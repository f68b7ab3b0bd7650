import LatentFactors.Proofs.Evaluation.Errors
import LatentFactors.Proofs.Frame
import LatentFactors.Proofs.Id

/-!
# Scores of users

A metric over the rows of a user is a score of the errors that stand beside the user
(`valuesOf`).  The users of a frame, one after the other, have all values of the rows
(`flatMap_valuesOf_perm`), so what is summed over the users is summed over the rows.

A mean times the number of its values is their sum.  So the mean absolute errors of the
users add up to the one of all rows if each counts as often as the user has rows
(`sum_mul_mean_valuesOf`), and so do the mean squared errors.
-/

namespace LatentFactors

variable {K : Type} [ExactScalar K]

theorem Scalar.length_mul_mean (xs : List K) : xs.length * Scalar.mean xs = xs.sum := by
  by_cases hnil : xs = []
  · subst hnil
    rw [List.length_nil, List.sum_nil, Nat.cast_zero, zero_mul]
  · rw [Scalar.mean_eq, mul_div_cancel₀ _ (Scalar.length_pos_cast hnil).ne']

namespace Evaluation

/-! ## Values of users -/

section

variable {β γ : Type} {users : List Id} {zs : List β}

/-- The values that stand beside a user. -/
def valuesOf (users : List Id) (zs : List β) (user : Id) : List β :=
  ((users.zip zs).filter fun e => e.1 = user).map (·.2)

theorem valuesOf_map (f : β → γ) (users : List Id) (zs : List β) (user : Id) :
    valuesOf users (zs.map f) user = (valuesOf users zs user).map f := by
  rw [valuesOf, List.zip_map_right, List.filter_map, List.map_map, valuesOf, List.map_map]
  rfl

theorem pickRows_eq_valuesOf (h : users.length = zs.length) (user : Id) :
    pickRows (rowsOf user (users.map some)) zs = valuesOf users zs user :=
  pickRows_rowsOf h user

theorem length_valuesOf (h : users.length = zs.length) (user : Id) :
    (valuesOf users zs user).length = users.countP (· = user) := by
  rw [valuesOf, List.length_map, ← List.countP_eq_length_filter]
  conv_rhs => rw [← List.map_fst_zip h.le, List.countP_map]
  rfl

/-- The users have all values, and each one once. -/
theorem flatMap_valuesOf_perm (h : users.length = zs.length) :
    ((distinct users).flatMap (valuesOf users zs)).Perm zs := by
  have hgroups : (distinct users).flatMap (valuesOf users zs) =
      pickRows (groupedRows users) zs := by
    rw [groupedRows, pickRows_flatMap]
    exact List.flatMap_congr fun user _ => (pickRows_eq_valuesOf h user).symm
  rw [hgroups]
  exact pickRows_perm_self (h ▸ groupedRows_perm users)

/-- Rows in another order have the values of a user in another order. -/
theorem valuesOf_pickRows_perm (h : users.length = zs.length) {order : List Nat}
    (horder : order.Perm (List.range users.length)) (user : Id) :
    (valuesOf (pickRows order users) (pickRows order zs) user).Perm (valuesOf users zs user) := by
  rw [valuesOf, ← pickRows_zip h]
  refine ((pickRows_perm_self ?_).filter _).map _
  rwa [List.length_zip, ← h, Nat.min_self]

end

/-- The means of the users add up to the mean of all values. -/
theorem sum_mul_mean_valuesOf {users listed : List Id} {zs : List K}
    (h : users.length = zs.length) (hlisted : listed.Perm (distinct users)) :
    (listed.map fun user =>
      (users.countP (· = user) : K) * Scalar.mean (valuesOf users zs user)).sum =
        users.length * Scalar.mean zs := by
  have hsums (user : Id) : (users.countP (· = user) : K) * Scalar.mean (valuesOf users zs user) =
      (valuesOf users zs user).sum := by
    rw [← length_valuesOf h, Scalar.length_mul_mean]
  calc (listed.map fun user =>
        (users.countP (· = user) : K) * Scalar.mean (valuesOf users zs user)).sum
      = ((distinct users).map fun user => (valuesOf users zs user).sum).sum := by
        simp only [hsums]
        exact (hlisted.map _).sum_eq
    _ = ((distinct users).flatMap (valuesOf users zs)).sum := by
        rw [List.flatMap, List.sum_flatten, List.map_map]
        rfl
    _ = zs.sum := (flatMap_valuesOf_perm h).sum_eq
    _ = users.length * Scalar.mean zs := by rw [h, Scalar.length_mul_mean]

theorem sortedUsers_perm (users : List Id) :
    (sortedUsers (users.map some)).Perm (distinct users) := by
  rw [sortedUsers, distinctSome_map_some]
  exact List.mergeSort_perm _ _

theorem mem_sortedUsers {users : List Id} {user : Id} :
    user ∈ sortedUsers (users.map some) ↔ user ∈ users := by
  rw [(sortedUsers_perm users).mem_iff, mem_distinct]

/-! ## Errors of users -/

theorem length_absoluteErrors {xs ts : List K} (h : xs.length = ts.length) :
    (absoluteErrors xs ts).length = xs.length := by
  rw [absoluteErrors, List.length_map, List.length_zip, ← h, Nat.min_self]

theorem absoluteErrors_pickRows {xs ts : List K} (h : xs.length = ts.length) (rows : List Nat) :
    absoluteErrors (pickRows rows xs) (pickRows rows ts) =
      pickRows rows (absoluteErrors xs ts) := by
  rw [absoluteErrors, absoluteErrors, ← pickRows_zip h, pickRows_map]

/-- A metric that is a score of the absolute errors, in any order. -/
structure FromErrors (metric : Metric K) (score : List K → K) : Prop where
  eq_ok {xs ts : List K} : xs.length = ts.length → metric xs ts = .ok (score (absoluteErrors xs ts))
  perm {es es' : List K} : es.Perm es' → score es = score es'

theorem mae_fromErrors : FromErrors (K := K) mae Scalar.mean where
  eq_ok := mae_eq
  perm := Scalar.mean_perm

theorem rmse_fromErrors : FromErrors (K := K) rmse Scalar.rootMeanSquare where
  eq_ok := rmse_eq
  perm h := congrArg Scalar.sqrt (Scalar.mean_perm (h.map _))

/-! ## Scores of a frame -/

/-- Every user of the rows has one score, and it is the metric over the rows of the user.
The users are listed in ascending order. -/
structure ByUser (metric : Metric K) (users : List Id) (xs ts : List K) (scores : List (Id × K)) :
    Prop where
  mem_users (u : Id) : u ∈ scores.map (·.1) ↔ u ∈ users
  ascending : (scores.map (·.1)).Pairwise fun u v => u.name ≠ v.name ∧ u.position ≤ v.position
  score : ∀ s ∈ scores, metric (valuesOf users xs s.1) (valuesOf users ts s.1) = .ok s.2

/-- The users, predictions and ratings of a frame, row by row.  Every row has a user. -/
structure Scored (f : Frame K) (users : List Id) (xs ts : List K) : Prop where
  ids : f.ids "user" = .ok users
  present : ∀ user ∈ users, user.isPresent = true
  predictions : f.values "prediction" = .ok xs
  ratings : f.values "rating" = .ok ts
  length_predictions : xs.length = users.length
  length_ratings : ts.length = users.length

namespace Scored

variable {f : Frame K} {users : List Id} {xs ts : List K} {metric : Metric K} {score : List K → K}

theorem of_rectangular (hf : f.Rectangular) (hids : f.ids "user" = .ok users)
    (hpresent : ∀ user ∈ users, user.isPresent = true) (hxs : f.values "prediction" = .ok xs)
    (hts : f.values "rating" = .ok ts) : Scored f users xs ts where
  ids := hids
  present := hpresent
  predictions := hxs
  ratings := hts
  length_predictions := (hf.length_values hxs).trans (hf.length_ids hids).symm
  length_ratings := (hf.length_values hts).trans (hf.length_ids hids).symm

theorem length_eq (h : Scored f users xs ts) : xs.length = ts.length :=
  h.length_predictions.trans h.length_ratings.symm

theorem length_errors (h : Scored f users xs ts) : users.length = (absoluteErrors xs ts).length :=
  h.length_predictions.symm.trans (length_absoluteErrors h.length_eq).symm

theorem pick (h : Scored f users xs ts) (rows : List Nat)
    (hrows : ∀ row ∈ rows, row < users.length) :
    Scored (f.pick rows) (pickRows rows users) (pickRows rows xs) (pickRows rows ts) where
  ids := Frame.ids_pick h.ids rows
  present user huser := by
    obtain ⟨row, -, hrow⟩ := Outcome.exists_left_of_forall₂ (forall₂_pickRows hrows) huser
    exact h.present user (List.mem_of_getElem? hrow)
  predictions := Frame.values_pick h.predictions rows
  ratings := Frame.values_pick h.ratings rows
  length_predictions := by
    rw [length_pickRows hrows, length_pickRows (h.length_predictions ▸ hrows)]
  length_ratings := by
    rw [length_pickRows hrows, length_pickRows (h.length_ratings ▸ hrows)]

/-- The rows of a user are measured by the errors that stand beside the user. -/
theorem metric_valuesOf (h : Scored f users xs ts) (hmetric : FromErrors metric score) (user : Id) :
    metric (valuesOf users xs user) (valuesOf users ts user) =
      .ok (score (valuesOf users (absoluteErrors xs ts) user)) := by
  have hlength : (valuesOf users xs user).length = (valuesOf users ts user).length := by
    rw [length_valuesOf h.length_predictions.symm, length_valuesOf h.length_ratings.symm]
  rw [hmetric.eq_ok hlength, ← pickRows_eq_valuesOf h.length_predictions.symm,
    ← pickRows_eq_valuesOf h.length_ratings.symm, ← pickRows_eq_valuesOf h.length_errors,
    absoluteErrors_pickRows h.length_eq]

/-- Each user is scored by the errors that stand beside the user. -/
theorem userScores_eq (h : Scored f users xs ts) (hne : users ≠ [])
    (hmetric : FromErrors metric score) :
    userScores f metric = .ok ((sortedUsers (users.map some)).map fun user =>
      (user, score (valuesOf users (absoluteErrors xs ts) user))) := by
  obtain ⟨predictions, hp, hxs⟩ := Outcome.bind_eq_ok.1 h.predictions
  obtain ⟨truth, ht, hts⟩ := Outcome.bind_eq_ok.1 h.ratings
  have hsome : (distinctSome (users.map some)).isEmpty = false := by
    obtain ⟨user, huser⟩ := List.exists_mem_of_ne_nil users hne
    rw [distinctSome_map_some, List.isEmpty_eq_false_iff]
    exact List.ne_nil_of_mem ((mem_distinct users).2 huser)
  rw [userScores, Frame.users_of_present h.ids h.present, Outcome.bind_ok, hp, Outcome.bind_ok, ht,
    Outcome.bind_ok, hsome, if_neg Bool.false_ne_true]
  refine Outcome.mapM_eq_ok_iff.2 (List.forall₂_map_right_iff.2 (List.forall₂_same.2 ?_))
  intro user _
  dsimp only
  rw [Column.values_pick hxs, Outcome.bind_ok, Column.values_pick hts, Outcome.bind_ok,
    pickRows_eq_valuesOf h.length_predictions.symm, pickRows_eq_valuesOf h.length_ratings.symm,
    h.metric_valuesOf hmetric, Outcome.bind_ok]
  rfl

/-- Where names are equal, so are users. -/
theorem eq_of_name_eq (h : Scored f users xs ts) {u v : Id} (hu : u ∈ users) (hv : v ∈ users)
    (hname : u.name = v.name) : u = v := by
  obtain ⟨c, -, hc⟩ := Outcome.bind_eq_ok.1 h.ids
  cases hc
  exact Column.eq_of_name_eq hu hv hname

theorem count_eq (h : Scored f users xs ts) {u : Id} (hu : u ∈ users) :
    users.count u = users.countP (· = u) := by
  refine List.countP_congr fun v hv => ?_
  rw [Id.beq_iff, decide_eq_true_eq]
  exact ⟨h.eq_of_name_eq hv hu, congrArg Id.name⟩

theorem pairwise_sortedUsers (h : Scored f users xs ts) :
    (sortedUsers (users.map some)).Pairwise fun u v =>
      u.name ≠ v.name ∧ u.position ≤ v.position := by
  have hordered : (sortedUsers (users.map some)).Pairwise fun u v => u.atMost v = true := by
    refine List.pairwise_mergeSort (fun u v w huv hvw => ?_) (fun u v => ?_) _
    · rw [Id.atMost_iff] at huv hvw ⊢
      exact huv.trans hvw
    · rw [Bool.or_eq_true, Id.atMost_iff, Id.atMost_iff]
      exact le_total _ _
  have hnodup : (sortedUsers (users.map some)).Nodup :=
    (sortedUsers_perm users).nodup_iff.2 (nodup_distinct users)
  refine (hordered.and hnodup).imp_of_mem fun {u v} hu hv huv => ?_
  have hname (hsame : u.name = v.name) : u = v :=
    h.eq_of_name_eq (mem_sortedUsers.1 hu) (mem_sortedUsers.1 hv) hsame
  exact ⟨fun hsame => huv.2 (hname hsame), (Id.atMost_iff u v).1 huv.1⟩

theorem byUser (h : Scored f users xs ts) (hmetric : FromErrors metric score) :
    ByUser metric users xs ts ((sortedUsers (users.map some)).map fun user =>
      (user, score (valuesOf users (absoluteErrors xs ts) user))) := by
  have hlisted : ((sortedUsers (users.map some)).map fun user =>
      (user, score (valuesOf users (absoluteErrors xs ts) user))).map (·.1) =
      sortedUsers (users.map some) := by
    rw [List.map_map]
    exact List.map_id _
  refine ⟨fun u => ?_, ?_, List.forall_mem_map.2 fun user _ => h.metric_valuesOf hmetric user⟩
  · rw [hlisted, mem_sortedUsers]
  · rw [hlisted]
    exact h.pairwise_sortedUsers

/-- The scores of the users add up to that of all rows. -/
theorem sum_count_mul (h : Scored f users xs ts) {zs : List K} (hzs : users.length = zs.length) :
    ((sortedUsers (users.map some)).map fun u =>
      (users.count u : K) * Scalar.mean (valuesOf users zs u)).sum =
        users.length * Scalar.mean zs := by
  rw [← sum_mul_mean_valuesOf hzs (sortedUsers_perm users)]
  refine congrArg List.sum (List.map_congr_left fun u hu => ?_)
  rw [h.count_eq (mem_sortedUsers.1 hu)]

/-- The order of the rows changes no score. -/
theorem exists_perm (h : Scored f users xs ts) (hne : users ≠ [])
    (hmetric : FromErrors metric score) {order : List Nat}
    (horder : order.Perm (List.range users.length)) :
    ∃ scores, userScores (f.pick order) metric = .ok scores ∧
      scores.Perm ((sortedUsers (users.map some)).map fun user =>
        (user, score (valuesOf users (absoluteErrors xs ts) user))) := by
  have hrows : ∀ row ∈ order, row < users.length := fun row hrow =>
    List.mem_range.1 (horder.mem_iff.1 hrow)
  have husers : (pickRows order users).Perm users := pickRows_perm_self horder
  have hne' : pickRows order users ≠ [] := by
    rwa [← List.length_pos_iff, husers.length_eq, List.length_pos_iff]
  refine ⟨_, (h.pick order hrows).userScores_eq hne' hmetric, ?_⟩
  have hscore (user : Id) : score (valuesOf (pickRows order users)
      (absoluteErrors (pickRows order xs) (pickRows order ts)) user) =
      score (valuesOf users (absoluteErrors xs ts) user) := by
    rw [absoluteErrors_pickRows h.length_eq]
    exact hmetric.perm (valuesOf_pickRows_perm h.length_errors horder user)
  simp only [hscore]
  refine List.Perm.map _ ?_
  exact (sortedUsers_perm _).trans ((distinct_perm husers).trans (sortedUsers_perm users).symm)

end Scored

end Evaluation

open Evaluation in
/-- In exact arithmetic, a frame with a user in every row has one score for each user, in
ascending order, and it is the metric over the rows of the user.

The mean absolute errors of the users, each as often as the user has rows, add up to the
one of all rows, and so do the squares of the root mean squared errors.  Rows in another
order have the same scores. -/
theorem user_scores_add_up (hroot : RootLaws K) {f : Frame K} {users : List Id} {xs ts : List K}
    (h : Scored f users xs ts) (hne : users ≠ []) :
    ∃ (maes rmses : List (Id × K)) (a b : K),
      userScores f mae = .ok maes ∧ userScores f rmse = .ok rmses ∧
      mae xs ts = .ok a ∧ rmse xs ts = .ok b ∧
      ByUser mae users xs ts maes ∧ ByUser rmse users xs ts rmses ∧
      (maes.map fun s => (users.count s.1 : K) * s.2).sum = users.length * a ∧
      (rmses.map fun s => (users.count s.1 : K) * (s.2 * s.2)).sum = users.length * (b * b) ∧
      ∀ order, order.Perm (List.range users.length) → ∃ maes' rmses',
        userScores (f.pick order) mae = .ok maes' ∧ userScores (f.pick order) rmse = .ok rmses' ∧
        maes'.Perm maes ∧ rmses'.Perm rmses := by
  refine ⟨_, _, _, _, h.userScores_eq hne mae_fromErrors, h.userScores_eq hne rmse_fromErrors,
    mae_eq h.length_eq, rmse_eq h.length_eq, h.byUser mae_fromErrors, h.byUser rmse_fromErrors,
    ?_, ?_, fun order horder => ?_⟩
  · rw [List.map_map]
    exact h.sum_count_mul h.length_errors
  · rw [List.map_map, Scalar.rootMeanSquare_mul_self hroot, ← h.sum_count_mul]
    · refine congrArg List.sum (List.map_congr_left fun u _ => ?_)
      rw [Function.comp_apply, Scalar.rootMeanSquare_mul_self hroot, valuesOf_map]
    · rw [List.length_map, h.length_errors]
  · obtain ⟨maes, hmaes, hmae⟩ := h.exists_perm hne mae_fromErrors horder
    obtain ⟨rmses, hrmses, hrmse⟩ := h.exists_perm hne rmse_fromErrors horder
    exact ⟨maes, rmses, hmaes, hrmses, hmae, hrmse⟩

/-- A user with two rows around the row of another one, who is listed first. -/
theorem user_scores_add_up_real :
    let f : Frame ℝ := ⟨⟨[("user", .ints .signed [2, 1, 2]),
      ("prediction", .reals [some 1, some 2, some 4]),
      ("rating", .reals [some 0, some 4, some 1])]⟩⟩
    ∃ x y a z w b : ℝ,
      Evaluation.userScores f Evaluation.mae = .ok [(.int 1, x), (.int 2, y)] ∧
      Evaluation.userScores f Evaluation.rmse = .ok [(.int 1, z), (.int 2, w)] ∧
      Evaluation.mae [1, 2, 4] [0, 4, 1] = .ok a ∧ Evaluation.rmse [1, 2, 4] [0, 4, 1] = .ok b ∧
      x + 2 * y = 3 * a ∧ z * z + 2 * (w * w) = 3 * (b * b) := by
  intro f
  have hrect : f.Rectangular := by
    unfold Frame.Rectangular
    decide
  have h : Evaluation.Scored f [.int 2, .int 1, .int 2] [1, 2, 4] [0, 4, 1] :=
    .of_rectangular hrect rfl (by decide) rfl rfl
  have hlisted : Evaluation.sortedUsers ([Id.int 2, .int 1, .int 2].map some) =
      [.int 1, .int 2] := by
    have hdistinct : distinct [Id.int 2, .int 1, .int 2] = [.int 2, .int 1] := by decide
    have horder : (Id.int 2).atMost (.int 1) = false := by decide
    rw [Evaluation.sortedUsers, distinctSome_map_some, hdistinct]
    simp [List.mergeSort, horder]
  obtain ⟨maes, rmses, a, b, hmaes, hrmses, ha, hb, -, -, hmae, hrmse, -⟩ :=
    user_scores_add_up rootLaws_real h (List.cons_ne_nil _ _)
  have hmaes' := h.userScores_eq (List.cons_ne_nil _ _) Evaluation.mae_fromErrors
  have hrmses' := h.userScores_eq (List.cons_ne_nil _ _) Evaluation.rmse_fromErrors
  rw [hlisted] at hmaes' hrmses'
  cases hmaes.symm.trans hmaes'
  cases hrmses.symm.trans hrmses'
  have hone : [Id.int 2, .int 1, .int 2].count (.int 1) = 1 := by decide
  have htwo : [Id.int 2, .int 1, .int 2].count (.int 2) = 2 := by decide
  simp only [List.map_cons, List.map_nil, List.sum_cons, List.sum_nil, List.length_cons,
    List.length_nil, hone, htwo, Nat.cast_one, Nat.cast_ofNat, one_mul, add_zero, Nat.reduceAdd]
    at hmae hrmse
  exact ⟨_, _, a, _, _, b, hmaes, hrmses, ha, hb, hmae, hrmse⟩

end LatentFactors
