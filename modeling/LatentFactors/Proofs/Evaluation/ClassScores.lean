import Mathlib.Data.List.Zip
import LatentFactors.Proofs.Arithmetic.Rational
import LatentFactors.Proofs.Evaluation.Means
import LatentFactors.Proofs.Frame

/-!
# Precision and recall

The scores of the classes are made of rows of a user, a predicted and a true class.
In exact arithmetic they do not depend on the order of the rows (`classScore_perm`) or
on the names of the users (`classScore_rename`).

Recall is precision with the two classes exchanged (`classScore_exchange`), so what is
proved of precision holds of recall as well.

`class_scores_are_dual_averages` puts these together for frames.
-/

namespace LatentFactors

namespace Evaluation

variable {K : Type} [ExactScalar K]

/-! ## Counting -/

theorem precisionRecall_perm {pairs pairs' : List (Int × Int)} (h : pairs.Perm pairs')
    (label : Int) :
    (precisionRecall label pairs : Option K × Option K) = precisionRecall label pairs' := by
  simp only [precisionRecall, (h.filter _).length_eq, ((h.filter _).filter _).length_eq]

/-- Exchanging the predicted and the true classes exchanges precision and recall. -/
theorem precisionRecall_exchange (label : Int) (pairs : List (Int × Int)) :
    (precisionRecall label (pairs.map Prod.swap) : Option K × Option K) =
      (precisionRecall label pairs).swap := by
  have hpredicted : (pairs.map Prod.swap).filter (fun p => p.1 = label) =
      (pairs.filter fun p => p.2 = label).map Prod.swap := List.filter_map
  have hactual : (pairs.map Prod.swap).filter (fun p => p.2 = label) =
      (pairs.filter fun p => p.1 = label).map Prod.swap := List.filter_map
  have hhits : ((pairs.filter fun p => p.2 = label).map Prod.swap).filter (fun p => p.2 = label) =
      ((pairs.filter fun p => p.2 = label).filter fun p => p.1 = label).map Prod.swap :=
    List.filter_map
  simp only [precisionRecall, hpredicted, hactual, hhits, List.length_map, Prod.swap_prod_mk]
  rw [List.filter_comm]

theorem fraction_eq_some_iff {part whole : Nat} {x : K} :
    fraction part whole = some x ↔ whole ≠ 0 ∧ x = part / whole := by
  rw [fraction]
  split
  · next hzero => simp [hzero]
  · next hne =>
    rw [ExactScalar.ofInt_eq, ExactScalar.ofInt_eq, Int.cast_natCast, Int.cast_natCast,
      Option.some.injEq]
    exact ⟨fun h => ⟨hne, h.symm⟩, fun h => h.2.symm⟩

/-- A precision is there exactly when the class is predicted. -/
theorem exists_precision_iff {label : Int} {pairs : List (Int × Int)} :
    (∃ x : K, (precisionRecall label pairs).1 = some x) ↔ ∃ pair ∈ pairs, pair.1 = label := by
  have hpredicted : (pairs.filter fun p => p.1 = label).length ≠ 0 ↔
      ∃ pair ∈ pairs, pair.1 = label := by
    rw [← Nat.pos_iff_ne_zero, List.length_pos_iff_exists_mem]
    simp only [List.mem_filter, decide_eq_true_eq]
  simp only [precisionRecall, fraction_eq_some_iff, ← hpredicted]
  exact ⟨fun ⟨_, h, _⟩ => h, fun h => ⟨_, h, rfl⟩⟩

/-- A precision is a part of a whole. -/
theorem precision_bounds {label : Int} {pairs : List (Int × Int)} {x : K}
    (h : (precisionRecall label pairs).1 = some x) : 0 ≤ x ∧ x ≤ 1 := by
  obtain ⟨hne, rfl⟩ := fraction_eq_some_iff.1 h
  have hpos : (0 : K) < (pairs.filter fun p => p.1 = label).length :=
    Nat.cast_pos.2 (Nat.pos_of_ne_zero hne)
  refine ⟨div_nonneg (Nat.cast_nonneg _) hpos.le, (div_le_one hpos).2 ?_⟩
  exact Nat.cast_le.2 (List.length_filter_le _ _)

/-- Where all predictions are right, all those of a class are hits. -/
theorem precision_eq_one {label : Int} {pairs : List (Int × Int)} {x : K}
    (hright : ∀ pair ∈ pairs, pair.1 = pair.2)
    (h : (precisionRecall label pairs).1 = some x) : x = 1 := by
  obtain ⟨hne, rfl⟩ := fraction_eq_some_iff.1 h
  have hhits : (pairs.filter fun p => p.1 = label).filter (fun p => p.2 = label) =
      pairs.filter fun p => p.1 = label := by
    refine List.filter_eq_self.2 fun pair hpair => ?_
    obtain ⟨hmem, hlabel⟩ := List.mem_filter.1 hpair
    rwa [← hright pair hmem]
  rw [hhits]
  exact div_self (Nat.cast_ne_zero.2 hne)

/-! ## Rows of users -/

/-- A row of a user, a predicted and a true class. -/
abbrev ClassRow := Id × Int × Int

/-- The classes in the rows of a user. -/
def classesOf (rows : List ClassRow) (user : Id) : List (Int × Int) :=
  (rows.filter fun row => row.1 = user).map (·.2)

/-- The scores of a class, from the rows. -/
def classScore (rows : List ClassRow) (label : Nat) : ClassScore K :=
  let scores := (distinct (rows.map (·.1))).map fun user =>
    (precisionRecall label (classesOf rows user) : Option K × Option K)
  ⟨label, meanPresent (scores.map (·.1)), meanPresent (scores.map (·.2))⟩

/-- The order of the rows does not matter. -/
theorem classScore_perm {rows rows' : List ClassRow} (h : rows.Perm rows') (label : Nat) :
    (classScore rows label : ClassScore K) = classScore rows' label := by
  have hscores : ((distinct (rows.map (·.1))).map fun user =>
      (precisionRecall label (classesOf rows user) : Option K × Option K)).Perm
        ((distinct (rows'.map (·.1))).map fun user =>
          precisionRecall label (classesOf rows' user)) := by
    have hsame : (fun user => (precisionRecall label (classesOf rows user) : Option K × Option K)) =
        fun user => precisionRecall label (classesOf rows' user) :=
      funext fun user => precisionRecall_perm ((h.filter _).map _) label
    rw [hsame]
    exact (distinct_perm (h.map _)).map _
  rw [classScore, classScore, meanPresent_perm (hscores.map (·.1)),
    meanPresent_perm (hscores.map (·.2))]

theorem classesOf_rename {rename : Id → Id} {rows : List ClassRow} {user : Id}
    (h : ∀ row ∈ rows, rename row.1 = rename user → row.1 = user) :
    classesOf (rows.map (Prod.map rename id)) (rename user) = classesOf rows user := by
  rw [classesOf, List.filter_map, List.map_map, classesOf]
  refine congrArg (List.map Prod.snd) (List.filter_congr fun row hrow => ?_)
  exact decide_eq_decide.2 ⟨h row hrow, congrArg rename⟩

/-- The names of the users do not matter. -/
theorem classScore_rename {rename : Id → Id} {rows : List ClassRow}
    (h : ∀ row ∈ rows, ∀ row' ∈ rows, rename row.1 = rename row'.1 → row.1 = row'.1) (label : Nat) :
    (classScore (rows.map (Prod.map rename id)) label : ClassScore K) = classScore rows label := by
  have husers : distinct ((rows.map (Prod.map rename id)).map (·.1)) =
      (distinct (rows.map (·.1))).map rename := by
    rw [List.map_map, ← distinct_map, List.map_map]
    · rfl
    · intro user huser user' huser'
      obtain ⟨row, hrow, rfl⟩ := List.mem_map.1 huser
      obtain ⟨row', hrow', rfl⟩ := List.mem_map.1 huser'
      exact h row hrow row' hrow'
  have hscores : (distinct ((rows.map (Prod.map rename id)).map (·.1))).map (fun user =>
      (precisionRecall label (classesOf (rows.map (Prod.map rename id)) user) :
        Option K × Option K)) =
      (distinct (rows.map (·.1))).map fun user => precisionRecall label (classesOf rows user) := by
    rw [husers, List.map_map]
    refine List.map_congr_left fun user huser => congrArg (precisionRecall (label : Int)) ?_
    obtain ⟨row, hrow, rfl⟩ := List.mem_map.1 ((mem_distinct _).1 huser)
    exact classesOf_rename fun row' hrow' => h row' hrow' row hrow
  rw [classScore, hscores, classScore]

/-- Exchanging the predicted and the true classes exchanges precision and recall. -/
theorem classScore_exchange (rows : List ClassRow) (label : Nat) :
    (classScore (rows.map (Prod.map id Prod.swap)) label : ClassScore K) =
      ⟨label, (classScore rows label).recallMean, (classScore rows label).precisionMean⟩ := by
  have husers : (rows.map (Prod.map id Prod.swap)).map (·.1) = rows.map (·.1) := by
    rw [List.map_map]
    rfl
  have hclasses (user : Id) : classesOf (rows.map (Prod.map id Prod.swap)) user =
      (classesOf rows user).map Prod.swap := by
    rw [classesOf, List.filter_map, List.map_map, classesOf, List.map_map]
    rfl
  simp only [classScore, husers, hclasses, precisionRecall_exchange, List.map_map]
  rfl

/-! ## Scores of a class -/

theorem mem_classesOf {rows : List ClassRow} {user : Id} {pair : Int × Int} :
    pair ∈ classesOf rows user ↔ (user, pair) ∈ rows := by
  rw [classesOf, List.mem_map]
  constructor
  · rintro ⟨⟨u, _⟩, hmem, rfl⟩
    obtain ⟨hmem, huser⟩ := List.mem_filter.1 hmem
    rwa [← of_decide_eq_true huser]
  · exact fun h => ⟨(user, pair), List.mem_filter.2 ⟨h, decide_eq_true rfl⟩, rfl⟩

/-- A precision of a user is among those that are averaged. -/
theorem mem_precisions {rows : List ClassRow} {label : Nat} {x : K}
    (h : some x ∈ ((distinct (rows.map (·.1))).map fun user =>
      (precisionRecall label (classesOf rows user) : Option K × Option K)).map (·.1)) :
    ∃ user, (precisionRecall label (classesOf rows user)).1 = some x := by
  rw [List.map_map] at h
  obtain ⟨user, -, hx⟩ := List.mem_map.1 h
  exact ⟨user, hx⟩

/-- The precision of a class is there exactly when a row predicts the class. -/
theorem isSome_precisionMean {rows : List ClassRow} {label : Nat} :
    (classScore rows label : ClassScore K).precisionMean.isSome = true ↔
      ∃ row ∈ rows, row.2.1 = label := by
  rw [classScore, isSome_meanPresent]
  constructor
  · rintro ⟨x, hx⟩
    obtain ⟨user, hx⟩ := mem_precisions hx
    obtain ⟨pair, hpair, hlabel⟩ := exists_precision_iff.1 ⟨x, hx⟩
    exact ⟨(user, pair), mem_classesOf.1 hpair, hlabel⟩
  · rintro ⟨⟨user, pair⟩, hrow, hlabel⟩
    obtain ⟨x, hx⟩ := (exists_precision_iff (K := K)).2 ⟨pair, mem_classesOf.2 hrow, hlabel⟩
    refine ⟨x, ?_⟩
    rw [List.map_map, List.mem_map]
    exact ⟨user, (mem_distinct _).2 (List.mem_map.2 ⟨_, hrow, rfl⟩), hx⟩

theorem precisionMean_bounds {rows : List ClassRow} {label : Nat} {m : K}
    (h : m ∈ (classScore rows label).precisionMean) : 0 ≤ m ∧ m ≤ 1 := by
  refine meanPresent_bounds (fun x hx => ?_) h
  obtain ⟨user, hx⟩ := mem_precisions hx
  exact precision_bounds hx

theorem precisionMean_eq_one {rows : List ClassRow} (hright : ∀ row ∈ rows, row.2.1 = row.2.2)
    {label : Nat} {m : K} (h : m ∈ (classScore rows label).precisionMean) : m = 1 := by
  suffices hbounds : 1 ≤ m ∧ m ≤ 1 from le_antisymm hbounds.2 hbounds.1
  refine meanPresent_bounds (fun x hx => ?_) h
  obtain ⟨user, hx⟩ := mem_precisions hx
  have hone := precision_eq_one (fun pair hpair => hright _ (mem_classesOf.1 hpair)) hx
  exact ⟨hone.ge, hone.le⟩

/-! ## Rows of three lists -/

section

variable {users : List Id} {predicted actual : List Int}

theorem map_predicted (hp : predicted.length = users.length) (ha : actual.length = users.length) :
    (users.zip (predicted.zip actual)).map (·.2.1) = predicted := by
  have hpairs : (predicted.zip actual).length = users.length := by
    rw [List.length_zip, hp, ha, Nat.min_self]
  calc (users.zip (predicted.zip actual)).map (·.2.1)
      = ((users.zip (predicted.zip actual)).map (·.2)).map (·.1) := (List.map_map ..).symm
    _ = predicted := by
        rw [List.map_snd_zip hpairs.le, List.map_fst_zip (hp.trans ha.symm).le]

/-- What is known of the precision of a class. -/
theorem precisionMean_spec (hp : predicted.length = users.length)
    (ha : actual.length = users.length) (label : Nat) :
    let s : ClassScore K := classScore (users.zip (predicted.zip actual)) label
    (s.precisionMean.isSome = true ↔ (label : Int) ∈ predicted) ∧
      (∀ x ∈ s.precisionMean, 0 ≤ x ∧ x ≤ 1) ∧
      (predicted = actual → ∀ x ∈ s.precisionMean, x = 1) := by
  refine ⟨?_, fun x hx => precisionMean_bounds hx, fun hsame x hx => ?_⟩
  · rw [isSome_precisionMean]
    conv_rhs => rw [← map_predicted hp ha, List.mem_map]
  · refine precisionMean_eq_one (fun row hrow => ?_) hx
    subst hsame
    have hpair := (List.of_mem_zip hrow).2
    rw [List.zip, List.zipWith_self] at hpair
    obtain ⟨p, -, hp⟩ := List.mem_map.1 hpair
    rw [← hp]

theorem classScore_zip_exchange (users : List Id) (predicted actual : List Int) (label : Nat) :
    let s : ClassScore K := classScore (users.zip (predicted.zip actual)) label
    classScore (users.zip (actual.zip predicted)) label =
      (⟨label, s.recallMean, s.precisionMean⟩ : ClassScore K) := by
  rw [← List.zip_swap predicted actual, List.zip_map_right, classScore_exchange]

end

/-! ## Scores of a frame -/

/-- The users and the predicted and true classes of a frame, row by row.  Every row has
a user. -/
structure Labelled (f : Frame K) (users : List Id) (predicted actual : List Int) : Prop where
  ids : f.ids "user" = .ok users
  present : ∀ user ∈ users, user.isPresent = true
  prediction : ∃ c, f.column "prediction" = .ok c ∧ c.wholeNumbers = .ok predicted
  rating : ∃ c, f.column "rating" = .ok c ∧ c.wholeNumbers = .ok actual
  length_predicted : predicted.length = users.length
  length_actual : actual.length = users.length

namespace Labelled

variable {f : Frame K} {users : List Id} {predicted actual : List Int}

/-- Columns of integers are read as they are. -/
theorem of_integers {predictedWidth actualWidth : Width} (hids : f.ids "user" = .ok users)
    (hpresent : ∀ user ∈ users, user.isPresent = true)
    (hprediction : f.column "prediction" = .ok (.ints predictedWidth predicted))
    (hrating : f.column "rating" = .ok (.ints actualWidth actual))
    (hfits : ∀ n ∈ predicted ++ actual, Width.signed.fits n = true)
    (hpredicted : predicted.length = users.length) (hactual : actual.length = users.length) :
    Labelled f users predicted actual where
  ids := hids
  present := hpresent
  prediction := ⟨_, hprediction, Column.wholeNumbers_ints fun n hn =>
    hfits n (List.mem_append_left actual hn)⟩
  rating := ⟨_, hrating, Column.wholeNumbers_ints fun n hn =>
    hfits n (List.mem_append_right predicted hn)⟩
  length_predicted := hpredicted
  length_actual := hactual

/-- The scores of a frame are those of its rows. -/
theorem classScores_eq (h : Labelled f users predicted actual) {classes : Int}
    (hclasses : 1 ≤ classes) : classScores f classes =
      .ok ((List.range classes.toNat).map (classScore (users.zip (predicted.zip actual)))) := by
  obtain ⟨p, hp, hpredicted⟩ := h.prediction
  obtain ⟨t, ht, hactual⟩ := h.rating
  have hlength : users.length = (predicted.zip actual).length := by
    rw [List.length_zip, h.length_predicted, h.length_actual, Nat.min_self]
  rw [classScores, hp, Outcome.bind_ok, hpredicted, Outcome.bind_ok, ht, Outcome.bind_ok, hactual,
    Outcome.bind_ok, if_neg (by omega), Frame.users_of_present h.ids h.present, Outcome.bind_ok]
  refine congrArg Except.ok (List.map_congr_left fun label _ => ?_)
  have hgroups (user : Id) : pickRows (rowsOf user (users.map some)) (predicted.zip actual) =
      classesOf (users.zip (predicted.zip actual)) user := pickRows_rowsOf hlength user
  have hsorted : (sortedUsers (users.map some)).Perm
      (distinct ((users.zip (predicted.zip actual)).map (·.1))) := by
    rw [List.map_fst_zip hlength.le, sortedUsers, distinctSome_map_some]
    exact List.mergeSort_perm _ _
  have hscores := hsorted.map fun user =>
    (precisionRecall label (classesOf (users.zip (predicted.zip actual)) user) :
      Option K × Option K)
  have hmapped : ((sortedUsers (users.map some)).map fun user =>
      pickRows (rowsOf user (users.map some)) (predicted.zip actual)).map
        (precisionRecall (label : Int)) =
      (sortedUsers (users.map some)).map fun user => (precisionRecall label
        (classesOf (users.zip (predicted.zip actual)) user) : Option K × Option K) := by
    simp only [List.map_map, Function.comp_def, hgroups]
  rw [hmapped, classScore]
  dsimp only
  rw [meanPresent_perm (hscores.map (·.1)), meanPresent_perm (hscores.map (·.2))]

theorem pick (h : Labelled f users predicted actual) (rows : List Nat)
    (hrows : ∀ row ∈ rows, row < users.length) :
    Labelled (f.pick rows) (pickRows rows users) (pickRows rows predicted)
      (pickRows rows actual) where
  ids := Frame.ids_pick h.ids rows
  present user huser := by
    obtain ⟨row, -, hrow⟩ := Outcome.exists_left_of_forall₂ (forall₂_pickRows hrows) huser
    exact h.present user (List.mem_of_getElem? hrow)
  prediction := by
    obtain ⟨c, hc, hpredicted⟩ := h.prediction
    exact ⟨_, Frame.column_pick hc rows, Column.wholeNumbers_pick hpredicted rows⟩
  rating := by
    obtain ⟨c, hc, hactual⟩ := h.rating
    exact ⟨_, Frame.column_pick hc rows, Column.wholeNumbers_pick hactual rows⟩
  length_predicted := by
    rw [length_pickRows hrows, length_pickRows (h.length_predicted ▸ hrows)]
  length_actual := by
    rw [length_pickRows hrows, length_pickRows (h.length_actual ▸ hrows)]

end Labelled

end Evaluation

open Evaluation in
/-- The scores of the classes of a frame, in exact arithmetic: one for every class, from
zero on.  The precision of a class is there exactly when a row predicts it, the recall
exactly when it is the class of a row, and both lie between zero and one.  They are one
where all predictions are right.

Exchanging the predicted and the true classes exchanges precision and recall.  The order
of the rows and the names of the users do not matter. -/
theorem class_scores_are_dual_averages {K : Type} [ExactScalar K] {f : Frame K} {users : List Id}
    {predicted actual : List Int} (h : Labelled f users predicted actual) {classes : Int}
    (hclasses : 1 ≤ classes) :
    ∃ scores : List (ClassScore K), classScores f classes = .ok scores ∧
      scores.map (·.label) = List.range classes.toNat ∧
      (∀ s ∈ scores,
        (s.precisionMean.isSome = true ↔ (s.label : Int) ∈ predicted) ∧
        (s.recallMean.isSome = true ↔ (s.label : Int) ∈ actual) ∧
        (∀ x ∈ s.precisionMean, 0 ≤ x ∧ x ≤ 1) ∧ (∀ x ∈ s.recallMean, 0 ≤ x ∧ x ≤ 1) ∧
        (predicted = actual → (∀ x ∈ s.precisionMean, x = 1) ∧ ∀ x ∈ s.recallMean, x = 1)) ∧
      (∀ f', Labelled f' users actual predicted → classScores f' classes =
        .ok (scores.map fun s => ⟨s.label, s.recallMean, s.precisionMean⟩)) ∧
      (∀ order, order.Perm (List.range users.length) →
        classScores (f.pick order) classes = .ok scores) ∧
      ∀ (f' : Frame K) (rename : Id → Id),
        (∀ u ∈ users, ∀ v ∈ users, rename u = rename v → u = v) →
        Labelled f' (users.map rename) predicted actual → classScores f' classes = .ok scores := by
  refine ⟨_, h.classScores_eq hclasses, ?_, fun s hs => ?_, fun f' h' => ?_, fun order horder => ?_,
    fun f' rename hrename h' => ?_⟩
  · rw [List.map_map]
    exact List.map_id _
  · obtain ⟨label, -, rfl⟩ := List.mem_map.1 hs
    obtain ⟨hprecision, hbounds, hone⟩ :=
      precisionMean_spec (K := K) h.length_predicted h.length_actual label
    obtain ⟨hrecall, hbounds', hone'⟩ :=
      precisionMean_spec (K := K) h.length_actual h.length_predicted label
    rw [classScore_zip_exchange] at hrecall hbounds' hone'
    exact ⟨hprecision, hrecall, hbounds, hbounds', fun hsame => ⟨hone hsame, hone' hsame.symm⟩⟩
  · rw [h'.classScores_eq hclasses, List.map_map]
    refine congrArg Except.ok (List.map_congr_left fun label _ => ?_)
    exact classScore_zip_exchange users predicted actual label
  · have hrows : ∀ row ∈ order, row < users.length := fun row hrow =>
      List.mem_range.1 (horder.mem_iff.1 hrow)
    rw [(h.pick order hrows).classScores_eq hclasses]
    refine congrArg Except.ok (List.map_congr_left fun label _ => classScore_perm ?_ label)
    have hpairs : predicted.length = actual.length := h.length_predicted.trans h.length_actual.symm
    have hlength : users.length = (predicted.zip actual).length := by
      rw [List.length_zip, hpairs, Nat.min_self, h.length_actual]
    rw [← pickRows_zip hpairs, ← pickRows_zip hlength]
    refine pickRows_perm_self ?_
    rwa [List.length_zip, ← hlength, Nat.min_self]
  · rw [h'.classScores_eq hclasses]
    refine congrArg Except.ok (List.map_congr_left fun label _ => ?_)
    rw [List.zip_map_left]
    refine classScore_rename (fun row hrow row' hrow' => ?_) label
    exact hrename _ (List.of_mem_zip hrow).1 _ (List.of_mem_zip hrow').1

/-- Three users, with a class that is predicted and not right, and one that is neither;
with the columns exchanged, the rows in another order and the users under other names. -/
theorem class_scores_are_dual_averages_rational :
    let f (users predicted actual : List Int) : Frame ℚ := ⟨⟨[("user", .ints .signed users),
      ("prediction", .ints .signed predicted), ("rating", .ints .signed actual)]⟩⟩
    ∃ scores, Evaluation.classScores (f [1, 2, 1, 3] [0, 1, 1, 2] [0, 1, 0, 1]) 4 = .ok scores ∧
      scores.map (·.precisionMean.isSome) = [true, true, true, false] ∧
      scores.map (·.recallMean.isSome) = [true, true, false, false] ∧
      Evaluation.classScores (f [1, 2, 1, 3] [0, 1, 0, 1] [0, 1, 1, 2]) 4 =
        .ok (scores.map fun s => ⟨s.label, s.recallMean, s.precisionMean⟩) ∧
      Evaluation.classScores (f [1, 3, 2, 1] [1, 2, 1, 0] [0, 1, 1, 0]) 4 = .ok scores ∧
      Evaluation.classScores (f [12, 11, 12, 10] [0, 1, 1, 2] [0, 1, 0, 1]) 4 = .ok scores := by
  intro f
  have hlabelled (users predicted actual : List Int)
      (hpresent : ∀ user ∈ users.map Id.int, user.isPresent = true)
      (hfits : ∀ n ∈ predicted ++ actual, Width.signed.fits n = true)
      (hpredicted : predicted.length = users.length) (hactual : actual.length = users.length) :
      Evaluation.Labelled (f users predicted actual) (users.map Id.int) predicted actual :=
    .of_integers rfl hpresent rfl rfl hfits (by simpa using hpredicted) (by simpa using hactual)
  have hrows := hlabelled [1, 2, 1, 3] [0, 1, 1, 2] [0, 1, 0, 1] (by decide) (by decide) rfl rfl
  have hexchanged := hlabelled [1, 2, 1, 3] [0, 1, 0, 1] [0, 1, 1, 2] (by decide) (by decide)
    rfl rfl
  have hrenamed := hlabelled [12, 11, 12, 10] [0, 1, 1, 2] [0, 1, 0, 1] (by decide) (by decide)
    rfl rfl
  have hfour : (1 : Int) ≤ 4 := by decide
  obtain ⟨scores, hscores, hlabels, heach, hexchange, horder, hrename⟩ :=
    class_scores_are_dual_averages hrows hfour
  have hsome {defined : ClassScore ℚ → Bool} {classes : List Int}
      (h : ∀ s ∈ scores, defined s = true ↔ (s.label : Int) ∈ classes) :
      scores.map defined =
        (List.range (Int.toNat 4)).map fun (label : Nat) => decide ((label : Int) ∈ classes) := by
    rw [← hlabels, List.map_map]
    exact List.map_congr_left fun s hs => Bool.eq_iff_iff.2 ((h s hs).trans decide_eq_true_iff.symm)
  refine ⟨scores, hscores, ?_, ?_, hexchange _ hexchanged, ?_, ?_⟩
  · exact (hsome fun s hs => (heach s hs).1).trans (by decide)
  · exact (hsome fun s hs => (heach s hs).2.1).trans (by decide)
  · exact horder [2, 3, 1, 0] (by decide)
  · exact hrename _ (fun id => if id = .int 1 then .int 12 else if id = .int 2 then .int 11
      else .int 10) (by decide) hrenamed

end LatentFactors
