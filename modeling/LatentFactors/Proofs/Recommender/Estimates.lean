import LatentFactors.Proofs.Experiment.Predictions
import LatentFactors.Proofs.Recommender.RawRanking

/-!
# Estimated classes

Of a list, `lastLargest?` chooses the last one of the largest elements (`LastLargest`): it
goes through the list with the last largest element so far, and of two equal elements it
keeps the later one (`foldl_laterLargest`).

A recommender of classes is made to estimate by the most probable one, and it keeps doing
so whatever is requested (`Recommender.served_keepsStrategy`).  It has a distribution with
an entry for each class for every user and item, so an estimate is a class.
-/

namespace LatentFactors

/-! ## The last largest element -/

section

variable {K : Type} [ExactScalar K]

/-- No element of the list is larger than the one in a place, and every later one is
smaller. -/
def LastLargest (xs : List K) (place : Nat) : Prop :=
  ∃ x, xs[place]? = some x ∧ (∀ y ∈ xs, y ≤ x) ∧
    ∀ later y, place < later → xs[later]? = some y → y < x

theorem laterLargest_eq (best candidate : Nat × K) :
    laterLargest best candidate = if candidate.2 < best.2 then best else candidate := by
  rw [laterLargest, ExactScalar.isUndefined_eq, ExactScalar.isUndefined_eq]
  simp only [Bool.false_eq_true, if_false, ExactScalar.less_iff]

/-- Going through elements in the order of their places finds the last largest one. -/
theorem foldl_laterLargest {first : Nat × K} {rest : List (Nat × K)}
    (h : (first :: rest).Pairwise fun a b => a.1 < b.1) :
    let best := rest.foldl laterLargest first
    best ∈ first :: rest ∧
      ∀ e ∈ first :: rest, e.2 ≤ best.2 ∧ (best.1 < e.1 → e.2 < best.2) := by
  induction rest generalizing first with
  | nil =>
    refine ⟨List.mem_cons_self, fun e he => ?_⟩
    rw [List.mem_singleton.1 he]
    exact ⟨le_rfl, fun hlt => absurd hlt (lt_irrefl _)⟩
  | cons second rest ih =>
    obtain ⟨hfirst, hrest⟩ := List.pairwise_cons.1 h
    obtain ⟨hsecond, hlater⟩ := List.pairwise_cons.1 hrest
    intro best
    have hbest : best = rest.foldl laterLargest (laterLargest first second) := rfl
    clear_value best
    rw [laterLargest_eq] at hbest
    split at hbest
    · next hlt =>
      -- The second element is smaller than the first one, which is kept.
      have hpair : (first :: rest).Pairwise fun a b => a.1 < b.1 :=
        List.pairwise_cons.2 ⟨fun e he => hfirst e (List.mem_cons_of_mem second he), hlater⟩
      obtain ⟨hmem, hall⟩ := ih hpair
      rw [← hbest] at hmem hall
      have hsmaller : second.2 < best.2 := hlt.trans_le (hall first List.mem_cons_self).1
      refine ⟨?_, fun e he => ?_⟩
      · exact (List.mem_cons.1 hmem).elim (fun h => h ▸ List.mem_cons_self) fun h =>
          List.mem_cons_of_mem first (List.mem_cons_of_mem second h)
      · rcases List.mem_cons.1 he with rfl | he
        · exact hall _ List.mem_cons_self
        · rcases List.mem_cons.1 he with rfl | he
          · exact ⟨hsmaller.le, fun _ => hsmaller⟩
          · exact hall e (List.mem_cons_of_mem first he)
    · next hge =>
      -- The second element is taken, and the first one comes before it.
      obtain ⟨hmem, hall⟩ := ih hrest
      rw [← hbest] at hmem hall
      refine ⟨List.mem_cons_of_mem first hmem, fun e he => ?_⟩
      rcases List.mem_cons.1 he with rfl | he
      · have hle : e.2 ≤ best.2 := (not_lt.1 hge).trans (hall second List.mem_cons_self).1
        exact ⟨hle, fun hlt => absurd (hfirst best hmem) hlt.not_gt⟩
      · exact hall e he

/-- A list with an element has a last largest one, and it is found. -/
theorem exists_lastLargest {xs : List K} (hne : xs ≠ []) :
    ∃ place, lastLargest? xs = some place ∧ LastLargest xs place := by
  have hmem {i : Nat} {x : K} : (i, x) ∈ xs.zipIdx.map Prod.swap ↔ xs[i]? = some x := by
    rw [List.mem_map]
    constructor
    · rintro ⟨e, he, hsame⟩
      cases hsame
      exact List.mem_zipIdx_iff_getElem?.1 he
    · exact fun h => ⟨(x, i), List.mem_zipIdx_iff_getElem?.2 h, rfl⟩
  have hplaces : (xs.zipIdx.map Prod.swap).Pairwise fun a b => a.1 < b.1 := by
    have hrange : (List.range' 0 xs.length).Pairwise (· < ·) := List.pairwise_lt_range' 1
    rw [← List.zipIdx_map_snd 0 xs, List.pairwise_map] at hrange
    exact List.pairwise_map.2 hrange
  rw [lastLargest?]
  split
  · next hentries =>
    rw [List.map_eq_nil_iff, List.zipIdx_eq_nil_iff] at hentries
    exact absurd hentries hne
  · next first rest hentries =>
    have hentries : xs.zipIdx.map Prod.swap = first :: rest := hentries
    rw [hentries] at hmem hplaces
    obtain ⟨hbest, hall⟩ := foldl_laterLargest hplaces
    refine ⟨_, rfl, _, hmem.1 hbest, fun y hy => ?_, fun later y hlater hy => ?_⟩
    · obtain ⟨i, hi⟩ := List.mem_iff_getElem?.1 hy
      exact (hall (i, y) (hmem.2 hi)).1
    · exact (hall (later, y) (hmem.2 hy)).2 hlater

theorem LastLargest.lt_length {xs : List K} {place : Nat} (h : LastLargest xs place) :
    place < xs.length := by
  obtain ⟨x, hx, -⟩ := h
  exact (List.getElem?_eq_some_iff.1 hx).1

/-- Of a distribution over several classes, the last most probable one is estimated. -/
theorem Strategy.exists_estimate {xs : List K} (h : 2 ≤ xs.length) (target : Int) :
    ∃ place : Nat, mostProbable.estimate xs target = .ok (.integer place) ∧
      LastLargest xs place := by
  have hne : xs ≠ [] := List.length_pos_iff.1 (by omega)
  obtain ⟨place, hfound, hlargest⟩ := exists_lastLargest hne
  refine ⟨place, ?_, hlargest⟩
  rw [estimate, if_neg (by omega), hfound]

end

/-! ## Recommenders of classes -/

namespace Recommender

section

variable {α : Type} [Scalar α]

/-- The same way from distributions to estimates. -/
def KeepsStrategy (r t : Recommender α) : Prop := t.strategy = r.strategy

omit [Scalar α] in
instance : IsPreorder (Recommender α) KeepsStrategy where
  refl _ := rfl
  trans _ _ _ h h' := h'.trans h

omit [Scalar α] in
theorem onStore_keepsStrategy {β : Type} (op : StoreM α β) :
    Stateful.Moves KeepsStrategy (onStore op) := fun _ => rfl

theorem serve_keepsStrategy (request : Request α) :
    Stateful.Moves KeepsStrategy (serve request) := by
  cases request with
  | call call =>
    refine .bind (moves_answer (fun id => ?_) (fun _ => onStore_keepsStrategy _)
      (fun _ => onStore_keepsStrategy _) (fun _ => onStore_keepsStrategy _) (fun user item y => ?_)
      (fun user item => ?_) call) fun _ _ _ _ => .pure _
    · unfold tellApart
      split
      · exact .bind (fun _ => rfl) fun _ _ _ _ => .bind .get fun _ _ _ _ => .pure _
      · exact .pure id
    · refine .bind (fun _ => rfl) fun _ _ _ _ => ?_
      exact .bind .get fun _ _ _ _ => onStore_keepsStrategy _
    · exact .bind .get fun _ _ _ _ => onStore_keepsStrategy _
  | act action => exact .bind .get fun _ _ _ _ => onStore_keepsStrategy _

theorem served_keepsStrategy (requests : List (Request α)) (r : Recommender α) :
    (served requests r).strategy = r.strategy := by
  induction requests generalizing r with
  | nil => rfl
  | cons request later ih => exact (ih _).trans (serve_keepsStrategy request r)

end

variable {K : Type} [ExactScalar K]

/-- Where classes are predicted, there are several. -/
theorem Sound.two_le_classCount {r : Recommender K} (hr : r.Sound)
    (hclasses : r.learner.hypothesis.predictsValue = false) : 2 ≤ r.store.shape.classCount := by
  have hadmits := hr.admits
  revert hadmits
  cases hkind : r.learner.hypothesis with
  | ols | poisson =>
    rw [hkind] at hclasses
    cases hclasses
  | logistic => exact fun h => h.2.ge
  | softmax => exact fun h => le_trans (by decide) h.2
  | ordinal => exact fun h => h.2

end Recommender

open Recommender in
/-- In exact arithmetic, the most probable class of a distribution over several classes is
the last one of the largest entries, and over a single class there is none.

Every recommender of classes that can be built estimates in this way by the distribution
over its classes, whatever has been requested before, if arrays can have the size of its
factors and a word with a sign holds the sizes of its side information. -/
theorem estimates_a_most_probable_class {K : Type} [ExactScalar K] :
    (∀ (xs : List K) (target : Int), 2 ≤ xs.length →
      ∃ place : Nat, Strategy.mostProbable.estimate xs target = .ok (.integer place) ∧
        LastLargest xs place) ∧
    (∀ (x : K) (target : Int),
      Strategy.mostProbable.estimate [x] target = .error .needsDistribution) ∧
    ∀ (c : LearnerConfig K), c.Sized → ∀ draws r₀, c.recommender draws = .ok r₀ →
      r₀.learner.hypothesis ∈ [Hypothesis.logistic, .softmax, .ordinal] →
      ∀ (requests : List (Request K)) (user item : Id),
        let r := served requests r₀
        ∃ (distribution : List K) (place : Nat),
          ((r.learner.predictFull user item).run r.store).1 = .ok distribution ∧
          (distribution.length : Int) = r.store.shape.classCount ∧
          ((estimate user item).run r).1 = .ok (.integer place) ∧
          (place : Int) < r.store.shape.classCount ∧ LastLargest distribution place := by
  refine ⟨fun xs target h => Strategy.exists_estimate h target, fun x target => rfl, ?_⟩
  intro c hsized draws r₀ hr hkind requests user item r
  obtain ⟨kind, shape, -, hshape, hmade⟩ := LearnerConfig.recommender_eq_create hr
  have hclasses : r₀.learner.hypothesis.predictsValue = false := by
    simp only [List.mem_cons, List.not_mem_nil, or_false] at hkind
    rcases hkind with hkind | hkind | hkind <;> rw [hkind] <;> rfl
  have hevolves : Evolves r₀ r := served_evolves requests r₀
  have hsound : r.Sound := (sound_of_recommender hr).of_evolves hevolves
  have hreadable : r.learner.Readable r.store.shape := by
    rw [hevolves.learner, hevolves.store.shape, hmade]
    exact hsized.readable hshape
  have hstrategy : r.strategy = .mostProbable := by
    rw [served_keepsStrategy, hmade]
    rw [hmade] at hclasses
    exact if_neg (Bool.eq_false_iff.1 hclasses)
  obtain ⟨distribution, hdistribution, hlength⟩ :=
    Learner.exists_predictFull hsound.wellSized hreadable hsound.scope hsound.admits user item
  have hmany : 2 ≤ r.store.shape.classCount := by
    refine hsound.two_le_classCount ?_
    rwa [hevolves.learner]
  have hseveral : 2 ≤ distribution.length := by omega
  obtain ⟨place, hestimate, hlargest⟩ := Strategy.exists_estimate hseveral r.target
  refine ⟨distribution, place, hdistribution, hlength, ?_, ?_, hlargest⟩
  · rw [← hstrategy] at hestimate
    exact (estimateFor_eq r (user, item)).trans (Outcome.bind_eq_ok.2 ⟨_, hdistribution, hestimate⟩)
  · have hlt := hlargest.lt_length
    omega

open Recommender in
/-- Three ordered classes, after a rating and one that is refused. -/
theorem estimates_a_most_probable_class_ordinal :
    let c : LearnerConfig ℚ := ((LearnerConfig.default.set .ordinal (.flag true)).set .classes
      (.ofInt 3)).set .factorSize (.ofInt 0)
    ∃ r₀, c.recommender (.ofSource fun _ => 0) = .ok r₀ ∧
      let r := served [.call (.addRating (.int 1) (.int 7) (.integer 2)),
        .act (.train (.int 1) (.int 7) (.integer 5))] r₀
      ∃ (distribution : List ℚ) (place : Nat),
        ((r.learner.predictFull (.int 1) (.int 7)).run r.store).1 = .ok distribution ∧
        (distribution.length : Int) = 3 ∧
        ((estimate (.int 1) (.int 7)).run r).1 = .ok (.integer place) ∧ (place : Int) < 3 ∧
        LastLargest distribution place := by
  intro c
  obtain ⟨r₀, hr⟩ : ∃ r₀, c.recommender (.ofSource fun _ => 0) = .ok r₀ := ⟨_, rfl⟩
  have hmade := hr
  injection hmade with hmade
  have hkind : r₀.learner.hypothesis ∈ [Hypothesis.logistic, .softmax, .ordinal] := by
    rw [← hmade]
    decide
  refine ⟨r₀, hr, ?_⟩
  intro r
  have hcount : r.store.shape.classCount = 3 := by
    rw [(served_evolves _ r₀).store.shape, ← hmade]
    rfl
  obtain ⟨distribution, place, h⟩ := estimates_a_most_probable_class.2.2 c
    ⟨⟨0, rfl, by decide⟩, fun hon => Bool.noConfusion hon⟩ _ r₀ hr hkind
    [.call (.addRating (.int 1) (.int 7) (.integer 2)),
      .act (.train (.int 1) (.int 7) (.integer 5))] (.int 1) (.int 7)
  rw [← hcount]
  exact ⟨distribution, place, h⟩

/-- Side information of a size that no word with a sign holds has no products, and no
factors start that are larger than arrays can be.  Then there is no estimate, although all
sizes are counts. -/
theorem estimate_fails_beyond_word :
    let c : LearnerConfig ℚ := (((LearnerConfig.default.set .classes (.ofInt 2)).set .factorSize
      (.ofInt 0)).set .sideInfo (.flag true)).set .itemSideSize (.ofInt signedLimit)
    let d : LearnerConfig ℚ := (LearnerConfig.default.set .classes (.ofInt 2)).set .factorSize
      (.ofInt (arrayLimit - 3))
    ((∃ n : Nat, (c.setting .factorSize).count = .ok (n : Int)) ∧
      (∀ f ∈ Field.sideSizes, ∃ m : Nat, (c.setting f).vectorSize = .ok (m : Int)) ∧
      ∃ r, c.recommender (.ofSource fun _ => 0) = .ok r ∧ r.learner.hypothesis = .logistic ∧
        ((Recommender.estimate (.int 1) (.int 7)).run r).1 = .error .tooLarge) ∧
    (∃ n : Nat, (d.setting .factorSize).count = .ok (n : Int)) ∧
      ∃ r, d.recommender (.ofSource fun _ => 0) = .ok r ∧ r.learner.hypothesis = .logistic ∧
        ((Recommender.estimate (.int 1) (.int 7)).run r).1 = .error .noSize := by
  intro c d
  refine ⟨⟨⟨0, rfl⟩, ?_, _, rfl, rfl, rfl⟩, ⟨(arrayLimit - 3).toNat, rfl⟩, _, rfl, rfl, rfl⟩
  intro f hf
  simp only [Field.sideSizes, List.mem_cons, List.not_mem_nil, or_false] at hf
  rcases hf with rfl | rfl | rfl
  · exact ⟨0, rfl⟩
  · exact ⟨signedLimit.toNat, rfl⟩
  · exact ⟨0, rfl⟩

end LatentFactors
