import LatentFactors.Proofs.Arithmetic.Order
import LatentFactors.Proofs.Arithmetic.Rational
import LatentFactors.Proofs.Learner.Progress
import LatentFactors.Proofs.Recommender.Evolution
import LatentFactors.Proofs.Recommender.History

/-!
# What is recommended

Scores are ranked from the largest to the smallest, with undefined ones last and
equal ones in the order of the candidates.  `Recommender.Ranks` says this by
positions, without a sorting algorithm, and `Recommender.ranks_mergeSort` says that
recommending does it.

The scores are those of the recommender as it is before it recommends anything:
scoring one candidate does not change the score of the next one
(`Recommender.run_recommend_of_known`).
-/

namespace LatentFactors.Recommender

variable {α : Type} [Scalar α]

/-- The score of an item for a user: the entry of its distribution at the target. -/
def score (r : Recommender α) (user item : Id) : Outcome α α := do
  targetScore (← ((r.learner.predictFull user item).run r.store).1) r.target

/-! ## Rankings -/

/-- Whether a score is above another one: it is larger, or the other one is
undefined and it is not. -/
def outranks (x y : α) : Bool :=
  !Scalar.isUndefined x && (Scalar.isUndefined y || Scalar.less y x)

/-- A ranking of scored items: higher scores come first, and items that neither
outranks come in their order. -/
def Ranks (scored ranking : List (Id × α)) : Prop :=
  ∃ placed : List ((Id × α) × Nat), placed.Perm scored.zipIdx ∧ ranking = placed.map (·.1) ∧
    placed.Pairwise fun a b =>
      outranks a.1.2 b.1.2 = true ∨ outranks b.1.2 a.1.2 = false ∧ a.2 < b.2

section

variable [OrderLaws α]

theorem ranksBefore_eq (x y : α) : ranksBefore x y = !outranks y x := by
  rw [ranksBefore, outranks]
  cases hy : Scalar.isUndefined y with
  | true => simp
  | false =>
    cases hx : Scalar.isUndefined x with
    | true => simp
    | false => simp [OrderLaws.less_eq hx hy]

theorem ranksBefore_total (x y : α) : (ranksBefore x y || ranksBefore y x) = true := by
  rw [ranksBefore, ranksBefore]
  cases hx : Scalar.isUndefined x with
  | true => simp
  | false =>
    cases hy : Scalar.isUndefined y with
    | true => simp
    | false =>
      rcases OrderLaws.atMost_total hx hy with h | h <;> simp [h]

theorem ranksBefore_trans {x y z : α} (h : ranksBefore x y = true) (h' : ranksBefore y z = true) :
    ranksBefore x z = true := by
  simp only [ranksBefore, Bool.or_eq_true, Bool.and_eq_true, Bool.not_eq_true'] at h h' ⊢
  rcases h' with hz | ⟨hy, hzy⟩
  · exact Or.inl hz
  · rcases h with hy' | ⟨hx, hyx⟩
    · rw [hy'] at hy
      cases hy
    · cases hz : Scalar.isUndefined z with
      | true => exact Or.inl rfl
      | false => exact Or.inr ⟨hx, OrderLaws.atMost_trans hz hy hx hzy hyx⟩

theorem outranks_asymm {x y : α} (h : outranks x y = true) : outranks y x = false := by
  have htotal := ranksBefore_total x y
  rw [ranksBefore_eq, ranksBefore_eq, h] at htotal
  simpa using htotal

omit [OrderLaws α] in
private theorem pairwise_places_aux (scored : List (Id × α)) :
    (scored.zipIdx.mergeSort (List.zipIdxLE fun a b => ranksBefore a.2 b.2)).Pairwise
      fun a b => a.2 ≠ b.2 := by
  have hplaces : (scored.zipIdx.map Prod.snd).Nodup := by
    rw [List.zipIdx_map_snd]
    exact List.nodup_range'
  have hperm := (List.mergeSort_perm scored.zipIdx
    (List.zipIdxLE fun a b => ranksBefore a.2 b.2)).map Prod.snd
  exact List.pairwise_map.1 (hperm.nodup_iff.2 hplaces)

/-- Sorting by score ranks. -/
theorem ranks_mergeSort (scored : List (Id × α)) :
    Ranks scored (scored.mergeSort fun a b => ranksBefore a.2 b.2) := by
  have htrans (a b c : Id × α) (h : ranksBefore a.2 b.2 = true) (h' : ranksBefore b.2 c.2 = true) :
      ranksBefore a.2 c.2 = true := ranksBefore_trans h h'
  have htotal (a b : Id × α) : (ranksBefore a.2 b.2 || ranksBefore b.2 a.2) = true :=
    ranksBefore_total a.2 b.2
  have hsorted := List.pairwise_mergeSort (List.zipIdxLE_trans htrans)
    (List.zipIdxLE_total htotal) scored.zipIdx
  refine ⟨_, List.mergeSort_perm _ _, List.mergeSort_zipIdx.symm, ?_⟩
  refine (hsorted.and (pairwise_places_aux scored)).imp ?_
  rintro ⟨a, i⟩ ⟨b, j⟩ ⟨hle, hne⟩
  simp only [List.zipIdxLE, ranksBefore_eq] at hle
  cases hab : outranks a.2 b.2 with
  | true => exact Or.inl rfl
  | false =>
    cases hba : outranks b.2 a.2 with
    | true => simp [hba] at hle
    | false =>
      have hij : i ≤ j := by simpa [hab, hba] using hle
      exact Or.inr ⟨rfl, lt_of_le_of_ne hij hne⟩

omit [OrderLaws α] in
theorem Ranks.perm {scored ranking : List (Id × α)} (h : Ranks scored ranking) :
    ranking.Perm scored := by
  obtain ⟨placed, hperm, rfl, -⟩ := h
  have hmap := hperm.map (·.1)
  rwa [List.zipIdx_map_fst] at hmap

/-- Nothing that comes later outranks what comes before it. -/
theorem Ranks.descending {scored ranking : List (Id × α)} (h : Ranks scored ranking) :
    ranking.Pairwise fun a b => outranks b.2 a.2 = false := by
  obtain ⟨placed, -, rfl, hranked⟩ := h
  refine List.pairwise_map.2 (hranked.imp ?_)
  rintro a b (habove | ⟨hbelow, -⟩)
  · exact outranks_asymm habove
  · exact hbelow

/-- The scored items and their order leave no choice for a ranking. -/
theorem Ranks.unique {scored ranking ranking' : List (Id × α)} (h : Ranks scored ranking)
    (h' : Ranks scored ranking') : ranking = ranking' := by
  obtain ⟨placed, hperm, rfl, hranked⟩ := h
  obtain ⟨placed', hperm', rfl, hranked'⟩ := h'
  refine congrArg (List.map Prod.fst)
    (List.Perm.eq_of_pairwise ?_ hranked hranked' (hperm.trans hperm'.symm))
  rintro a b - - (hab | ⟨hba, hlt⟩) (hba' | ⟨hab', hlt'⟩)
  · rw [outranks_asymm hab] at hba'
    cases hba'
  · rw [hab] at hab'
    cases hab'
  · rw [hba] at hba'
    cases hba'
  · exact absurd hlt (Nat.lt_asymm hlt')

end

/-! ## Recommending -/

/-- Scoring an item for a known user in a recommender that cannot be told apart
gives the same and leaves such a recommender. -/
theorem run_scoring {r t : Recommender α} {user item : Id} {items : List Id}
    (hknows : Knows user items r) (hitem : item ∈ items) (h : Matches id r t) :
    let scoring : RecommenderM α (Id × α) := do
      return (item, ← lift (targetScore (← predictAll user item) r.target))
    (scoring.run t).1 = (do return (item, ← r.score user item)) ∧
      Matches id r (scoring.run t).2 := by
  intro scoring
  obtain ⟨hagree, hafter⟩ := predictAll_matches user item r t h
  have hkept := trans_of (Matches id) (predictAll_keepsKnown hitem r hknows) hafter
  have hpredicted : ((predictAll user item).run r).1 =
      ((r.learner.predictFull user item).run r.store).1 := rfl
  rw [score, ← hpredicted, ← hagree.eq]
  unfold scoring
  rw [Stateful.run_bind]
  rcases hrun : (predictAll user item).run t with ⟨e | distribution, u⟩
  · rw [hrun] at hkept
    exact ⟨rfl, hkept⟩
  · rw [hrun] at hkept
    dsimp only
    rw [Stateful.run_bind]
    cases htarget : targetScore distribution r.target with
    | error e => exact ⟨by rw [Outcome.bind_ok, htarget]; rfl, hkept⟩
    | ok x => exact ⟨by rw [Outcome.bind_ok, htarget]; rfl, hkept⟩

/-- A known user is recommended the first ones of the eligible candidates by their
scores, or nothing if one of these has none. -/
theorem run_recommend_of_known {r : Recommender α} {user : Id}
    (huser : r.store.hasFamily .userFactors user = true) (candidates : Option (List Id)) (n : Int) :
    ((recommend user n candidates).run r).1 = (do
      let scored ← (r.eligible user candidates).mapM fun item => do
        return (item, ← r.score user item)
      return head n (scored.mergeSort fun a b => ranksBefore a.2 b.2)) := by
  have hknows : Knows user (r.eligible user candidates) r := by
    refine ⟨huser, fun item hitem => ?_⟩
    have hkept := (List.mem_filter.1 hitem).2
    rw [Bool.and_eq_true] at hkept
    exact hkept.2
  have hscored := Stateful.fst_run_mapM (I := Matches id r)
    (fun item hitem t ht => run_scoring hknows hitem ht) (refl_of (Matches id) r)
  rw [recommend, Stateful.run_bind_of_ok (Stateful.run_get r), if_pos huser, ← hscored,
    Stateful.run_bind]
  split
  · next heq => rw [heq]; rfl
  · next heq => rw [heq]; rfl

/-- If every candidate that is eligible for a known user has a score, these scores
are sorted and the first ones are recommended. -/
theorem run_recommend_of_scores {r : Recommender α} {user : Id} {candidates : Option (List Id)}
    (huser : r.store.hasFamily .userFactors user = true)
    (h : ∀ item ∈ r.eligible user candidates, ∃ x, r.score user item = .ok x) :
    ∃ scored : List (Id × α),
      List.Forall₂ (fun item entry => entry.1 = item ∧ r.score user item = .ok entry.2)
        (r.eligible user candidates) scored ∧
      ∀ n, ((recommend user n candidates).run r).1 =
        .ok (head n (scored.mergeSort fun a b => ranksBefore a.2 b.2)) := by
  obtain ⟨scored, hscored⟩ : ∃ scored, ((r.eligible user candidates).mapM fun item => do
      return (item, ← r.score user item)) = Except.ok scored := by
    refine Outcome.exists_mapM_ok fun item hitem => ?_
    obtain ⟨x, hx⟩ := h item hitem
    exact ⟨(item, x), Outcome.bind_eq_ok.2 ⟨x, hx, rfl⟩⟩
  refine ⟨scored, ?_, fun n => ?_⟩
  · refine (Outcome.mapM_eq_ok_iff.1 hscored).imp fun item entry hentry => ?_
    obtain ⟨x, hx, hentry⟩ := Outcome.bind_eq_ok.1 hentry
    cases hentry
    exact ⟨rfl, hx⟩
  · rw [run_recommend_of_known huser, hscored, Outcome.bind_ok]
    rfl

/-- A recommender of a typed and sized configuration can read and predict, whatever
has happened since it was made. -/
theorem ready_of_evolves {c : LearnerConfig α} (htyped : c.Typed) (hsized : c.Sized)
    {draws : Draws α} {r₀ r : Recommender α} (hr : c.recommender draws = .ok r₀)
    (h : Evolves r₀ r) :
    ∃ kind, r.learner = c.learner kind ∧ r.store.shape.Admits kind ∧ r.store.WellSized ∧
      (c.learner kind).Readable r.store.shape ∧ r.target = r.store.shape.classCount - 1 := by
  obtain ⟨kind, shape, hresolve, hshape, hlearner, hstore, htarget⟩ :=
    LearnerConfig.recommender_eq_ok hr
  have hsame : r.store.shape = shape := by
    rw [h.store.shape, hstore]
    rfl
  refine ⟨kind, h.learner.trans hlearner, ?_, h.store.wellSized ?_, ?_, ?_⟩
  · rw [hsame]
    exact LearnerConfig.admits_of_integer hresolve hshape htyped.classes
  · rw [hstore]
    exact Store.wellSized_create shape draws
  · rw [hsame]
    exact hsized.readable hshape
  · rw [h.target, htarget, hsame]

/-- A recommender of a typed and sized configuration has a score for every user and
every item, whatever has happened since. -/
theorem exists_score {c : LearnerConfig α} (htyped : c.Typed) (hsized : c.Sized)
    {draws : Draws α} {r₀ r : Recommender α} (hr : c.recommender draws = .ok r₀)
    (h : Evolves r₀ r) (user item : Id) : ∃ x, r.score user item = .ok x := by
  obtain ⟨kind, hlearner, hadmits, hwell, hreadable, htarget⟩ :=
    ready_of_evolves htyped hsized hr h
  obtain ⟨distribution, hpredicted, hlength⟩ :=
    Learner.exists_predictFull hwell hreadable (c.requireScope_learner kind) hadmits user item
  rw [← hlearner] at hpredicted
  have hpos := r.store.shape.classCount_pos
  have hlast : distribution.length - 1 < distribution.length := by omega
  have hlastClass : r.target = ((distribution.length - 1 : Nat) : Int) := by omega
  refine ⟨distribution[distribution.length - 1], ?_⟩
  rw [score, hpredicted, Outcome.bind_ok, targetScore, hlastClass, place, place?_natCast hlast,
    Outcome.bind_ok, Outcome.nth_of_lt hlast]

/-- The items to score after a session are the candidates that are known and were
not passed to `addRating` with the user. -/
theorem eligible_after {r₀ : Recommender α} (hfresh : r₀.rated = .empty) (calls : List (Call α))
    (user : Id) (candidates : Option (List Id)) :
    (after calls r₀).eligible user candidates =
      (candidates.getD ((after calls r₀).store.owners .itemFactors)).filter fun item =>
        ((after calls r₀).store.owners .itemFactors).contains item &&
          !(logged calls r₀).passed.any fun pair => pair.1 == user && pair.2 == item := by
  refine List.filter_congr fun item _ => ?_
  rw [← tracks_logged hfresh calls user item, recommender_logged, Store.contains_owners,
    Bool.and_comm]

/-- A recommender after any session that starts without ratings, asked for the best
items among some candidates or among all known items.  These are listed in the
order in which they became known, each once.  Nothing is recommended to an unknown
user.  For a known one the eligible candidates are those that are known and were
never passed to `addRating` with the user.  If they all have scores, which is always
so for a typed and sized configuration, then the first `n` of their ranking are
recommended: nothing that is left out outranks what is listed, and with a larger `n`
the list goes on. -/
theorem recommend_is_exact_top [OrderLaws α] {r₀ : Recommender α} (hfresh : r₀.rated = .empty)
    (calls : List (Call α)) (user : Id) (candidates : Option (List Id)) :
    let r := after calls r₀
    let known := r.store.owners .itemFactors
    let eligible := (candidates.getD known).filter fun item => known.contains item &&
      !(logged calls r₀).passed.any fun pair => pair.1 == user && pair.2 == item
    ((∀ before later, calls = before ++ later →
        (after before r₀).store.owners .itemFactors <+: known) ∧
      (r₀.store.families.keys.Pairwise (fun a b => (a == b) = false) →
        known.Pairwise fun a b => (a == b) = false)) ∧
    ((r.store.owners .userFactors).contains user = false →
      ∀ n, ((recommend user n candidates).run r).1 = .ok []) ∧
    ((r.store.owners .userFactors).contains user = true →
      (∀ item ∈ eligible, ∃ x, r.score user item = .ok x) →
      ∃ scored ranking : List (Id × α),
        List.Forall₂ (fun item entry => entry.1 = item ∧ r.score user item = .ok entry.2)
          eligible scored ∧
        Ranks scored ranking ∧ ranking.length = eligible.length ∧
        (∀ n : Nat, ((recommend user n candidates).run r).1 = .ok (ranking.take n)) ∧
        (∀ n, ∀ listed ∈ ranking.take n, ∀ left ∈ ranking.drop n,
          outranks left.2 listed.2 = false) ∧
        ∀ n n' : Nat, n ≤ n' → ranking.take n <+: ranking.take n') ∧
    ∀ (c : LearnerConfig α) (draws : Draws α), c.Typed → c.Sized →
      c.recommender draws = .ok r₀ → ∀ item, ∃ x, r.score user item = .ok x := by
  intro r known eligible
  refine ⟨⟨?_, ?_⟩, ?_, ?_, ?_⟩
  · rintro before later rfl
    show _ <+: (after (before ++ later) r₀).store.owners .itemFactors
    rw [after_append]
    exact ((after_evolves later (after before r₀)).store.owners .itemFactors).1
  · exact ((after_evolves calls r₀).store.owners .itemFactors).2
  · intro huser n
    rw [Store.contains_owners] at huser
    rw [recommend, Stateful.run_bind_of_ok (Stateful.run_get r),
      if_neg (Bool.eq_false_iff.1 huser)]
    rfl
  · intro huser hscores
    rw [Store.contains_owners] at huser
    have heligible : r.eligible user candidates = eligible := eligible_after hfresh calls user _
    rw [← heligible] at hscores ⊢
    obtain ⟨scored, hscored, hrun⟩ := run_recommend_of_scores huser hscores
    have hranks := ranks_mergeSort scored
    refine ⟨scored, _, hscored, hranks, ?_, fun n => ?_, fun n listed hlisted left hleft => ?_,
      fun n n' hn => ?_⟩
    · rw [hranks.perm.length_eq, hscored.length_eq]
    · rw [hrun, head, if_neg (Int.not_lt.2 (Int.natCast_nonneg n)), Int.toNat_natCast]
    · exact hranks.descending.rel_of_mem_take_of_mem_drop hlisted hleft
    · exact List.take_prefix_take_left hn
  · intro c draws htyped hsized hr item
    exact exists_score htyped hsized hr (after_evolves calls r₀) user item

/-- Four users who rated an item each.  The first one is recommended the other three
items: the one with the best rating first, and the two with equal ratings in the order
in which they became known. -/
theorem recommend_is_exact_top_rational :
    let c : LearnerConfig ℚ := LearnerConfig.default.set .factorSize (.ofInt 0)
    let calls : List (Call ℚ) :=
      [.addRating (.int 1) (.int 7) (.integer 4), .addRating (.int 2) (.int 8) (.integer 3),
        .addRating (.int 3) (.int 9) (.integer 3), .addRating (.int 4) (.int 10) (.integer 5)]
    let ranking : List (Id × ℚ) :=
      [(.int 10, 48599 / 200000), (.int 8, 46599 / 200000), (.int 9, 46599 / 200000)]
    ∃ r₀, c.recommender (.ofSource fun _ => 0) = .ok r₀ ∧
      (∀ item, ∃ x, (after calls r₀).score (.int 1) item = .ok x) ∧
      ∀ n : Nat, ((recommend (.int 1) n none).run (after calls r₀)).1 = .ok (ranking.take n) := by
  intro c calls ranking
  have hrates : ∀ f ∈ Field.rates, ∃ x, (c.setting f).vectorFactor = .ok x := by
    intro f hf
    simp only [Field.rates, List.mem_cons, List.not_mem_nil, or_false] at hf
    rcases hf with rfl | rfl | rfl | rfl | rfl | rfl | rfl <;> exact ⟨_, rfl⟩
  have hsized : c.Sized := ⟨⟨0, rfl, by decide⟩, fun hon => by cases hon⟩
  have hranking : Ranks [(.int 8, 46599 / 200000), (.int 9, 46599 / 200000),
      (.int 10, 48599 / 200000)] ranking :=
    ⟨[((.int 10, 48599 / 200000), 2), ((.int 8, 46599 / 200000), 0),
      ((.int 9, 46599 / 200000), 1)], by decide +kernel, rfl,
      by decide +kernel⟩
  obtain ⟨r₀, hr, hfresh, huser, heligible, height, hnine, hten⟩ : ∃ r₀,
      c.recommender (.ofSource fun _ => 0) = .ok r₀ ∧ r₀.rated = .empty ∧
        ((after calls r₀).store.owners .userFactors).contains (.int 1) = true ∧
        (((after calls r₀).store.owners .itemFactors).filter fun item =>
          ((after calls r₀).store.owners .itemFactors).contains item &&
            !(logged calls r₀).passed.any fun pair => pair.1 == .int 1 && pair.2 == item) =
          [.int 8, .int 9, .int 10] ∧
        (after calls r₀).score (.int 1) (.int 8) = .ok (46599 / 200000) ∧
        (after calls r₀).score (.int 1) (.int 9) = .ok (46599 / 200000) ∧
        (after calls r₀).score (.int 1) (.int 10) = .ok (48599 / 200000) :=
    ⟨_, rfl, rfl, by decide +kernel, by decide +kernel, by decide +kernel, by decide +kernel,
      by decide +kernel⟩
  obtain ⟨-, -, hknown, hall⟩ := recommend_is_exact_top hfresh calls (.int 1) none
  have hscores (item : Id) : ∃ x, (after calls r₀).score (.int 1) item = .ok x :=
    hall c (.ofSource fun _ => 0) ⟨⟨1, rfl⟩, hrates⟩ hsized hr item
  obtain ⟨scored, listed, hscored, hranks, -, hrun, -⟩ := hknown huser fun item _ => hscores item
  rw [Option.getD_none, heligible] at hscored
  obtain ⟨⟨_, x⟩, _, ⟨rfl, hx⟩, hrest, rfl⟩ := List.forall₂_cons_left_iff.1 hscored
  obtain ⟨⟨_, y⟩, _, ⟨rfl, hy⟩, hlast, rfl⟩ := List.forall₂_cons_left_iff.1 hrest
  obtain ⟨⟨_, z⟩, _, ⟨rfl, hz⟩, hnil, rfl⟩ := List.forall₂_cons_left_iff.1 hlast
  rw [List.forall₂_nil_left_iff.1 hnil] at hranks
  obtain rfl : 46599 / 200000 = x := Except.ok.inj (height.symm.trans hx)
  obtain rfl : 46599 / 200000 = y := Except.ok.inj (hnine.symm.trans hy)
  obtain rfl : 48599 / 200000 = z := Except.ok.inj (hten.symm.trans hz)
  refine ⟨r₀, hr, hscores, fun n => ?_⟩
  rw [hrun, hranks.unique hranking]

end LatentFactors.Recommender
