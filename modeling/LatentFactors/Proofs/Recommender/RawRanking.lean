import Mathlib.Data.List.Nodup
import LatentFactors.Proofs.Learner.RawScore
import LatentFactors.Proofs.Recommender.Ranking
import LatentFactors.Proofs.Recommender.Requests

/-!
# Ranking by raw scores

Candidates are ranked by the target class, and a recommender of a configuration has
the last class as its target.  What is predicted for that class is the raw score
under a link that rises strictly and that all items share (`Recommender.score_eq`).
So the ranking is that of the raw scores (`recommend_ranks_by_raw_score`).

A ranking follows a single score upwards: if the score of an item rises and no other
one changes, then nothing that was behind the item gets in front of it
(`Recommender.Ranks.place_le`).
-/

namespace LatentFactors

namespace Recommender

variable {K : Type} [ExactScalar K]

/-! ## Places in a ranking -/

theorem outranks_iff {x y : K} : outranks x y = true ↔ y < x := by
  rw [outranks, ExactScalar.isUndefined_eq, ExactScalar.isUndefined_eq]
  simpa using ExactScalar.less_iff y x

theorem outranks_eq_false_iff {x y : K} : outranks x y = false ↔ x ≤ y := by
  rw [← Bool.not_eq_true, outranks_iff, not_lt]

theorem ranksBefore_eq_decide (x y : K) : ranksBefore x y = decide (y ≤ x) := by
  rw [ranksBefore_eq, Bool.eq_iff_iff, Bool.not_eq_true', outranks_eq_false_iff, decide_eq_true_iff]

/-- The same item, with a score that has not fallen, and that is the same unless it is
a given one. -/
structure Raised (item : Id) (entry entry' : Id × K) : Prop where
  id : entry'.1 = entry.1
  score : entry.2 ≤ entry'.2
  other (h : (entry.1 == item) = false) : entry'.2 = entry.2

/-- What came behind an item before does not come in front of it now. -/
private theorem not_before_aux {a b a' b' : K} {i j : Nat} (ha : a' = a) (hb : b ≤ b')
    (hbefore : outranks b a = true ∨ outranks a b = false ∧ j < i)
    (hafter : outranks a' b' = true ∨ outranks b' a' = false ∧ i < j) : False := by
  subst ha
  rw [outranks_iff, outranks_eq_false_iff] at hbefore hafter
  rcases hbefore with hbefore | ⟨hbefore, hji⟩
  · rcases hafter with hafter | ⟨hafter, -⟩
    · exact (hbefore.trans_le hb).not_gt hafter
    · exact (hbefore.trans_le hb).not_ge hafter
  · rcases hafter with hafter | ⟨-, hij⟩
    · exact (hbefore.trans hb).not_gt hafter
    · omega

/-- Whatever is not in front of the first element with a property, and does not have
it, comes behind that element. -/
theorem exists_rel_of_not_mem_take {β : Type} {R : β → β → Prop} {xs : List β} {p : β → Bool}
    (hxs : xs.Pairwise R) {x : β} (hx : x ∈ xs) (hp : p x = false)
    (hnot : x ∉ xs.take (xs.findIdx p)) : ∃ y ∈ xs, p y = true ∧ R y x := by
  have hdrop : x ∈ xs.drop (xs.findIdx p) := by
    rw [← List.take_append_drop (xs.findIdx p) xs, List.mem_append] at hx
    exact hx.resolve_left hnot
  have hlt : xs.findIdx p < xs.length := by
    by_contra hle
    rw [List.drop_eq_nil_of_le (not_lt.1 hle)] at hdrop
    cases hdrop
  have hfirst : p (xs[xs.findIdx p]) = true := List.findIdx_getElem
  have hpair : (xs.drop (xs.findIdx p)).Pairwise R := hxs.drop
  rw [List.drop_eq_getElem_cons hlt] at hdrop hpair
  rcases List.mem_cons.1 hdrop with rfl | hlater
  · rw [hfirst] at hp
    cases hp
  · exact ⟨_, List.getElem_mem hlt, hfirst, (List.pairwise_cons.1 hpair).1 x hlater⟩

/-- Whatever is in front of the first element with a property comes before all elements
that have it. -/
theorem rel_of_mem_take {β : Type} {R : β → β → Prop} {xs : List β} {p : β → Bool}
    (hxs : xs.Pairwise R) {x y : β} (hx : x ∈ xs.take (xs.findIdx p)) (hy : y ∈ xs)
    (hp : p y = true) : R x y := by
  refine hxs.rel_of_mem_take_of_mem_drop hx ?_
  rw [← List.take_append_drop (xs.findIdx p) xs, List.mem_append] at hy
  refine hy.resolve_left fun htake => ?_
  rw [List.false_of_mem_take_findIdx htake] at hp
  cases hp

/-- An item whose score rises does not fall in the ranking, if all other scores stay. -/
theorem Ranks.place_le {item : Id} {scored scored' ranking ranking' : List (Id × K)}
    (h : Ranks scored ranking) (h' : Ranks scored' ranking')
    (hraised : List.Forall₂ (Raised item) scored scored') :
    ranking'.findIdx (·.1 == item) ≤ ranking.findIdx (·.1 == item) := by
  obtain ⟨placed, hperm, rfl, hranked⟩ := h
  obtain ⟨placed', hperm', rfl, hranked'⟩ := h'
  rw [List.findIdx_map, List.findIdx_map]
  generalize hp : ((fun e : Id × K => e.1 == item) ∘ fun e : (Id × K) × Nat => e.1) = isItem
  have hisItem (e : (Id × K) × Nat) : isItem e = (e.1.1 == item) := by
    rw [← hp]
    rfl
  have hdistinct : (placed'.take (placed'.findIdx isItem)).Nodup := by
    have hplaces : (scored'.zipIdx.map Prod.snd).Nodup := by
      rw [List.zipIdx_map_snd]
      exact List.nodup_range'
    exact (hperm'.nodup_iff.2 (List.Nodup.of_map _ hplaces)).sublist (List.take_sublist _ _)
  -- What is in front of the item with the higher score was in front of it before.
  have hsubset : placed'.take (placed'.findIdx isItem) ⊆ placed.take (placed.findIdx isItem) := by
    rintro ⟨⟨id, x⟩, i⟩ he
    have hother : isItem ((id, x), i) = false := List.false_of_mem_take_findIdx he
    have hplace := List.mem_zipIdx_iff_getElem?.1 (hperm'.subset (List.mem_of_mem_take he))
    obtain ⟨⟨id', x'⟩, hplace', hsame⟩ := Outcome.exists_left_of_getElem? hraised hplace
    obtain rfl : id = id' := hsame.id
    rw [hisItem] at hother
    have hx : x = x' := hsame.other hother
    subst hx
    have hmem : ((id, x), i) ∈ placed := hperm.mem_iff.2 (List.mem_zipIdx_iff_getElem?.2 hplace')
    by_contra hnot
    rw [← hisItem ((id, x), i)] at hother
    obtain ⟨⟨a, j⟩, ha, hitem, hbefore⟩ :=
      exists_rel_of_not_mem_take hranked hmem hother hnot
    obtain ⟨a', ha', hrisen⟩ := Outcome.exists_right_of_getElem? hraised
      (List.mem_zipIdx_iff_getElem?.1 (hperm.subset ha))
    have hmem' : (a', j) ∈ placed' := hperm'.mem_iff.2 (List.mem_zipIdx_iff_getElem?.2 ha')
    have hitem' : isItem (a', j) = true := by
      rw [hisItem, hrisen.id, ← hisItem (a, j), hitem]
    exact not_before_aux rfl hrisen.score hbefore (rel_of_mem_take hranked' he hmem' hitem')
  have hlength := (List.subperm_of_subset hdistinct hsubset).length_le
  rwa [List.length_take_of_le List.findIdx_le_length,
    List.length_take_of_le List.findIdx_le_length] at hlength

/-! ## Scores -/

/-- The raw score of a user and an item. -/
def rawScore (r : Recommender K) (user item : Id) : Outcome K K :=
  ((r.learner.rawScore user item).run r.store).1

/-- The raw scores of the eligible candidates. -/
def rawScores (r : Recommender K) (user : Id) (candidates : Option (List Id)) :
    Outcome K (List (Id × K)) :=
  (r.eligible user candidates).mapM fun item => do return (item, ← r.rawScore user item)

theorem rawScore_of_mem {r : Recommender K} {user : Id} {candidates : Option (List Id)}
    {scored : List (Id × K)} (h : r.rawScores user candidates = .ok scored) :
    ∀ entry ∈ scored, r.rawScore user entry.1 = .ok entry.2 := by
  refine Outcome.forall_of_mapM h fun item _ entry hentry => ?_
  obtain ⟨x, hx, hentry⟩ := Outcome.bind_eq_ok.1 hentry
  cases hentry
  exact hx

/-- A recommender with the sizes that its hypothesis is for, which recommends by the
last class. -/
structure Sound (r : Recommender K) : Prop where
  scope : r.learner.requireScope = .ok ()
  admits : r.store.shape.Admits r.learner.hypothesis
  wellSized : r.store.WellSized
  target : r.target = r.store.shape.classCount - 1

theorem sound_of_recommender {c : LearnerConfig K} {draws : Draws K} {r : Recommender K}
    (hr : c.recommender draws = .ok r) : r.Sound := by
  obtain ⟨kind, shape, hresolve, hshape, hlearner, hstore, htarget⟩ :=
    LearnerConfig.recommender_eq_ok hr
  constructor
  · rw [hlearner]
    exact c.requireScope_learner kind
  · rw [hlearner, hstore]
    exact LearnerConfig.admits_of_exact hresolve hshape
  · rw [hstore]
    exact Store.wellSized_create shape draws
  · rw [hstore, htarget]
    rfl

theorem Sound.of_evolves {r t : Recommender K} (hr : r.Sound) (h : Evolves r t) : t.Sound := by
  constructor
  · rw [h.learner]
    exact hr.scope
  · rw [h.learner, h.store.shape]
    exact hr.admits
  · exact h.store.wellSized hr.wellSized
  · rw [h.target, h.store.shape]
    exact hr.target

/-- The score of an item is its raw score under the link of the hypothesis. -/
theorem score_eq {r : Recommender K} (hr : r.Sound) (hkind : r.learner.hypothesis ≠ .softmax)
    (user item : Id) :
    r.score user item =
      (do return r.learner.hypothesis.link r.store.cuts (← r.rawScore user item)) := by
  rw [score, rawScore, Learner.rawScore, Learner.run_predictFull, hr.scope, Store.run_bind]
  dsimp only
  rcases hgather : (r.learner.gather user item).run r.store with ⟨e | g, t⟩
  · rfl
  · have hfits := Learner.fits_of_run hr.wellSized hgather
    have hcuts : g.cuts = r.store.cuts :=
      (Learner.readFrom_of_run hgather).cuts.trans
        ((Learner.gather_moves r.learner user item).of_run hgather).cuts
    have hcount := Hypothesis.vectorCount_of_admits hr.admits hkind
    dsimp only
    rw [Store.run_lift, Gathered.scores_eq hfits hcount]
    cases hraw : g.rawScore with
    | error e => rfl
    | ok x =>
      obtain ⟨distribution, hdistribution, hlength, hlast⟩ :=
        Hypothesis.last_of_predictFull hr.admits hkind hfits.cuts x
      obtain ⟨hlt, -⟩ := List.getElem?_eq_some_iff.1 hlast
      have htarget : r.target = ((distribution.length - 1 : Nat) : Int) := by
        rw [hr.target, ← hlength]
        omega
      rw [Outcome.bind_ok, Outcome.pure_eq_ok, Outcome.bind_ok, hdistribution, Outcome.bind_ok,
        Outcome.bind_ok, targetScore, htarget, place, place?_natCast hlt,
        Outcome.bind_ok, Outcome.nth_eq_ok_iff.2 hlast, hcuts]
      rfl

/-! ## The ranking -/

/-- A known user is recommended the first ones of the eligible candidates by their raw
scores. -/
theorem run_recommend_by_rawScores {r : Recommender K} (hr : r.Sound)
    (hkind : r.learner.hypothesis ≠ .softmax)
    (hlink : StrictMono (r.learner.hypothesis.link r.store.cuts)) {user : Id}
    (huser : r.store.hasFamily .userFactors user = true) (candidates : Option (List Id))
    (n : Nat) :
    ((recommend user n candidates).run r).1 = (do
      let scored ← r.rawScores user candidates
      return ((scored.mergeSort fun a b => b.2 ≤ a.2).take n).map fun entry =>
        (entry.1, r.learner.hypothesis.link r.store.cuts entry.2)) := by
  have hscored : ((r.eligible user candidates).mapM fun item => do
      return (item, ← r.score user item)) = (do
        return (← r.rawScores user candidates).map fun entry =>
          (entry.1, r.learner.hypothesis.link r.store.cuts entry.2)) := by
    rw [rawScores, ← Outcome.mapM_bind_pure]
    simp only [score_eq hr hkind, bind_assoc, pure_bind]
  have hsort (scored : List (Id × K)) :
      ((scored.map fun entry => (entry.1, r.learner.hypothesis.link r.store.cuts entry.2)).mergeSort
        fun a b => ranksBefore a.2 b.2) =
      (scored.mergeSort fun a b => b.2 ≤ a.2).map fun entry =>
        (entry.1, r.learner.hypothesis.link r.store.cuts entry.2) := by
    refine (List.map_mergeSort fun a _ b _ => ?_).symm
    rw [ranksBefore_eq_decide]
    exact decide_eq_decide.2 hlink.le_iff_le.symm
  have hhead (xs : List (Id × K)) : head n xs = xs.take n := by
    rw [head, if_neg (Int.not_lt.2 (Int.natCast_nonneg n)), Int.toNat_natCast]
  rw [run_recommend_of_known huser, hscored]
  simp only [bind_assoc, pure_bind, hsort, hhead, List.map_take]

/-- A typed and sized configuration has a raw score for every user and every item. -/
theorem exists_rawScore {c : LearnerConfig K} (htyped : c.Typed) (hsized : c.Sized)
    {draws : Draws K} {r₀ r : Recommender K} (hr : c.recommender draws = .ok r₀)
    (h : Evolves r₀ r) (hkind : r.learner.hypothesis ≠ .softmax) (user item : Id) :
    ∃ x, r.rawScore user item = .ok x := by
  obtain ⟨kind, hlearner, hadmits, hwell, hreadable, -⟩ := ready_of_evolves htyped hsized hr h
  obtain ⟨g, t, scores, hgather, hscores, -⟩ :=
    Learner.exists_linearCombination hwell hreadable (c.requireScope_learner kind) user item
  rw [hlearner] at hkind
  rw [Gathered.scores_eq (Learner.fits_of_run hwell hgather)
    (Hypothesis.vectorCount_of_admits hadmits hkind)] at hscores
  obtain ⟨x, hx, -⟩ := Outcome.bind_eq_ok.1 hscores
  refine ⟨x, ?_⟩
  rw [rawScore, hlearner, Learner.rawScore, Store.run_bind_of_ok hgather, Store.run_lift, hx]

omit [ExactScalar K] in
/-- The place of an item among the first ones of a ranking. -/
theorem findIdx_take_map (ranking : List (Id × K)) (φ : K → K) (n : Nat) (item : Id) :
    ((ranking.take n).map fun entry => (entry.1, φ entry.2)).findIdx (·.1 == item) =
      min n (ranking.findIdx (·.1 == item)) := by
  rw [List.findIdx_map, List.findIdx_take]
  rfl

/-- A recommender of a configuration without unordered classes, after any requests.
It recommends what a stable sort of the eligible candidates by falling raw scores puts
first, and fails where a candidate has no raw score.  This does not happen if the
configuration is typed and sized.

A request may raise the raw score of an item.  If the eligible candidates and the raw
scores of all others are what they were, then the item is not listed behind its old
place, and not dropped. -/
theorem recommend_ranks_by_raw_score (hexp : StrictMono (Scalar.exp : K → K))
    (hexpit : StrictMono (Scalar.expit : K → K)) {c : LearnerConfig K} {draws : Draws K}
    {r₀ : Recommender K} (hr : c.recommender draws = .ok r₀)
    (hkind : r₀.learner.hypothesis ≠ .softmax) (requests : List (Request K)) (user : Id) :
    let r := served requests r₀
    (c.Typed → c.Sized → ∀ item, ∃ x, r.rawScore user item = .ok x) ∧
    (r.store.hasFamily .userFactors user = true →
      (∃ φ : K → K, StrictMono φ ∧ ∀ candidates (n : Nat),
        ((recommend user n candidates).run r).1 = (do
          let scored ← r.rawScores user candidates
          return ((scored.mergeSort fun a b => b.2 ≤ a.2).take n).map fun entry =>
            (entry.1, φ entry.2))) ∧
      ∀ requests' candidates candidates' item (n : Nat) listed listed',
        let r' := served requests' r₀
        r'.store.hasFamily .userFactors user = true →
        r'.eligible user candidates' = r.eligible user candidates →
        (∀ other ∈ r.eligible user candidates, ∀ x x', r.rawScore user other = .ok x →
          r'.rawScore user other = .ok x' → x ≤ x' ∧ ((other == item) = false → x' = x)) →
        ((recommend user n candidates).run r).1 = .ok listed →
        ((recommend user n candidates').run r').1 = .ok listed' →
        listed'.findIdx (·.1 == item) ≤ listed.findIdx (·.1 == item)) := by
  have hready (requests : List (Request K)) : (served requests r₀).Sound ∧
      (served requests r₀).learner.hypothesis ≠ .softmax := by
    have hevolves := served_evolves requests r₀
    refine ⟨(sound_of_recommender hr).of_evolves hevolves, ?_⟩
    rw [hevolves.learner]
    exact hkind
  intro r
  obtain ⟨hsound, hnot⟩ := hready requests
  have hlink := Hypothesis.strictMono_link hexp hexpit r.learner.hypothesis r.store.cuts
  refine ⟨?_, fun huser => ⟨⟨_, hlink, ?_⟩, ?_⟩⟩
  · intro htyped hsized item
    exact exists_rawScore htyped hsized hr (served_evolves requests r₀) hnot user item
  · exact run_recommend_by_rawScores hsound hnot hlink huser
  · intro requests' candidates candidates' item n listed listed' r' huser' heligible hraised
      hlisted hlisted'
    obtain ⟨hsound', hnot'⟩ := hready requests'
    have hlink' := Hypothesis.strictMono_link hexp hexpit r'.learner.hypothesis r'.store.cuts
    rw [run_recommend_by_rawScores hsound hnot hlink huser] at hlisted
    rw [run_recommend_by_rawScores hsound' hnot' hlink' huser'] at hlisted'
    obtain ⟨scored, hscored, hlisted⟩ := Outcome.bind_eq_ok.1 hlisted
    obtain ⟨scored', hscored', hlisted'⟩ := Outcome.bind_eq_ok.1 hlisted'
    cases hlisted
    cases hlisted'
    rw [rawScores, heligible] at hscored'
    have hentries : List.Forall₂ (Raised item) scored scored' := by
      refine Outcome.forall₂_of_mapM hscored hscored' ?_
      intro other hother _ _ hentry hentry'
      obtain ⟨x, hx, hentry⟩ := Outcome.bind_eq_ok.1 hentry
      obtain ⟨x', hx', hentry'⟩ := Outcome.bind_eq_ok.1 hentry'
      cases hentry
      cases hentry'
      obtain ⟨hle, hsame⟩ := hraised other hother x x' hx hx'
      exact ⟨rfl, hle, hsame⟩
    simp only [findIdx_take_map, ← ranksBefore_eq_decide]
    exact min_le_min_left n ((ranks_mergeSort scored).place_le (ranks_mergeSort scored') hentries)

/-- Two ordered classes of rational numbers.  The first user has rated one item, and a
second user has rated two others, of which the better one is recommended first.  The
other one does not fall behind its place when the second user rates it better. -/
theorem recommend_ranks_by_raw_score_rational :
    let c : LearnerConfig ℚ :=
      (((((LearnerConfig.default.set .classes (.ofInt 2)).set .ordinal (.flag true)).set
        .factorSize (.ofInt 0)).set .learningRate (.ofInt 1)).set .factorPenalty (.ofInt 0)).set
        .biasPenalty (.ofInt 0)
    let requests : List (Request ℚ) :=
      [.call (.addRating (.int 1) (.int 7) (.integer 1)),
        .call (.addRating (.int 2) (.int 8) (.integer 0)),
        .call (.addRating (.int 2) (.int 9) (.integer 1))]
    let raised := requests ++ [.call (.addRating (.int 2) (.int 8) (.integer 1))]
    ∃ r₀, (StrictMono (Scalar.exp : ℚ → ℚ) ∧ StrictMono (Scalar.expit : ℚ → ℚ) ∧
        c.recommender (.ofSource fun _ => 0) = .ok r₀ ∧ r₀.learner.hypothesis ≠ .softmax) ∧
      (served requests r₀).rawScores (.int 1) none =
        .ok [(.int 8, 3656 / 56805), (.int 9, 41008054 / 31581795)] ∧
      (do return (← ((recommend (.int 1) 2 none).run (served requests r₀)).1).map (·.1)) =
        (.ok [.int 9, .int 8] : Outcome ℚ (List Id)) ∧
      ∀ listed listed', ((recommend (.int 1) 2 none).run (served requests r₀)).1 = .ok listed →
        ((recommend (.int 1) 2 none).run (served raised r₀)).1 = .ok listed' →
        listed'.findIdx (·.1 == .int 8) ≤ listed.findIdx (·.1 == .int 8) := by
  intro c requests raised
  obtain ⟨r₀, hr, hkind, huser, huser', heligible, heligible', hscored, hscored'⟩ : ∃ r₀,
      c.recommender (.ofSource fun _ => 0) = .ok r₀ ∧ r₀.learner.hypothesis ≠ .softmax ∧
        (served requests r₀).store.hasFamily .userFactors (.int 1) = true ∧
        (served raised r₀).store.hasFamily .userFactors (.int 1) = true ∧
        (served requests r₀).eligible (.int 1) none = [.int 8, .int 9] ∧
        (served raised r₀).eligible (.int 1) none = [.int 8, .int 9] ∧
        (served requests r₀).rawScores (.int 1) none =
          .ok [(.int 8, 3656 / 56805), (.int 9, 41008054 / 31581795)] ∧
        (served raised r₀).rawScores (.int 1) none =
          .ok [(.int 8, 2221423004649461 / 3910831962291555), (.int 9, 41008054 / 31581795)] :=
    ⟨_, rfl, by decide, by decide +kernel, by decide +kernel, by decide +kernel, by decide +kernel,
      by decide +kernel, by decide +kernel⟩
  have hlinks := linkLaws_rational
  obtain ⟨-, hknown⟩ := recommend_ranks_by_raw_score hyperbolicGrowth_strictMono
    hlinks.expit_strictMono hr hkind requests (.int 1)
  obtain ⟨⟨φ, -, hrecommend⟩, hplace⟩ := hknown huser
  refine ⟨r₀, ⟨hyperbolicGrowth_strictMono, hlinks.expit_strictMono, hr, hkind⟩, hscored, ?_, ?_⟩
  · have hsorted : ([(.int 8, 3656 / 56805), (.int 9, 41008054 / 31581795)] :
        List (Id × ℚ)).mergeSort (fun a b => b.2 ≤ a.2) =
          [(.int 9, 41008054 / 31581795), (.int 8, 3656 / 56805)] := by
      norm_num [List.mergeSort]
    have hlisted : ((recommend (.int 1) 2 none).run (served requests r₀)).1 = _ :=
      hrecommend none 2
    rw [hscored, Outcome.bind_ok, hsorted] at hlisted
    rw [hlisted]
    rfl
  · intro listed listed'
    refine hplace raised none none (.int 8) 2 listed listed' huser'
      (heligible'.trans heligible.symm) fun other hother x x' hx hx' => ?_
    have hbefore := rawScore_of_mem hscored
    have hafter := rawScore_of_mem hscored'
    simp only [List.forall_mem_cons, List.not_mem_nil, false_imp_iff, imp_true_iff,
      and_true] at hbefore hafter
    rw [heligible] at hother
    rcases List.mem_cons.1 hother with rfl | hother
    · rw [hbefore.1, Except.ok.injEq] at hx
      rw [hafter.1, Except.ok.injEq] at hx'
      subst hx hx'
      exact ⟨by norm_num, fun hne => by cases hne⟩
    · obtain rfl := List.mem_singleton.1 hother
      rw [hbefore.2, Except.ok.injEq] at hx
      rw [hafter.2, Except.ok.injEq] at hx'
      subst hx hx'
      exact ⟨le_refl _, fun _ => rfl⟩

end Recommender

end LatentFactors
