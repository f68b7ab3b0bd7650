import LatentFactors.Proofs.Arithmetic.Rational
import LatentFactors.Proofs.Config
import LatentFactors.Proofs.Learner.Blocks
import LatentFactors.Proofs.Recommender.Requests

/-!
# Accounting for random draws

Users and items come into being inside of all kinds of requests.  As all of them are runs
of actions, the store of a recommender stays balanced: it has taken one block of draws for
every user and every item, in the order in which they became known
(`draws_are_accounted_for`).

Preparing for the same frame again does nothing (`Recommender.prepare_settles`), unless
the frame has an undefined number in place of a name: every such number stands for a
user or an item of its own, each time that it is read.
-/

namespace LatentFactors

variable {α : Type} [Scalar α]

/-- No user and no item of a frame of ratings is an undefined number. -/
def Frame.Named (ratings : Frame α) : Prop :=
  ∀ column ∈ ["user", "item"], ∀ ids, ratings.ids column = .ok ids →
    ∀ id ∈ ids, ∀ serial, id.name ≠ .undefined serial

namespace Store

/-! ## Operations that can be repeated -/

variable {I : Store α → Prop}

/-- A family that is there is not created again. -/
theorem run_touch_of_hasFamily {kind : FamilyKind} {owner : Id} {s : Store α}
    (h : s.hasFamily kind owner = true) : (touch kind owner).run s = (.ok (), s) := by
  obtain ⟨vectors, hfind⟩ := Option.isSome_iff_exists.1 h
  have hfamily : (family kind owner).run s = (.ok vectors, s) := by
    rw [run_family, hfind]
  exact run_bind_of_ok hfamily _

/-- Factors that no array holds are refused if they are not there. -/
theorem run_touch_of_le {n : Nat} {kind : FamilyKind} {intercept : Nat}
    (hrole : kind.role = .factors intercept) {owner : Id} {s : Store α}
    (hs : s.shape.factorSize.count = .ok (n : Int)) (hlimit : arrayLimit ≤ (n + 3 : Int))
    (h : s.hasFamily kind owner = false) : (touch kind owner).run s = (.error .noSize, s) := by
  have hnone : s.families.find? ⟨kind, owner⟩ = none := by
    simpa [hasFamily, Table.contains] using h
  have hfamily : (family kind owner).run s = (.error .noSize, s) := by
    rw [run_family, hnone]
    dsimp only
    rw [run_freshFamily_factors_of_le hrole (Shape.room_of_count hs hrole).1 hlimit]
  rw [touch, run_bind, hfamily]

/-- A family of factors is created once. -/
theorem touch_settles {n : Nat} {kind : FamilyKind} {intercept : Nat}
    (hrole : kind.role = .factors intercept) (owner : Id) :
    Stateful.Settles (fun s => s.shape.factorSize.count = .ok (n : Int)) Retains
      (touch (α := α) kind owner) := by
  intro s r t u hs hrun hu
  cases hthere : s.hasFamily kind owner with
  | true =>
    rw [run_touch_of_hasFamily hthere] at hrun
    cases hrun
    exact run_touch_of_hasFamily (hu.along.hasFamily hthere)
  | false =>
    by_cases hlimit : (n + 3 : Int) < arrayLimit
    · obtain ⟨vectors, t', hfamily, -⟩ :=
        exists_run_family (Shape.canStart_of_count hs hlimit hrole) owner
      have htouch : (touch kind owner).run s = (.ok (), t') := run_bind_of_ok hfamily _
      rw [htouch] at hrun
      cases hrun
      have hmade : t.hasFamily kind owner = true := by
        rw [hasFamily, Table.contains, find?_of_run_family hfamily]
        rfl
      exact run_touch_of_hasFamily (hu.along.hasFamily hmade)
    · have hrefused := run_touch_of_le hrole hs (Int.not_lt.1 hlimit) hthere
      have hagain := hrefused
      rw [hrefused] at hrun
      cases hrun
      rw [hu.eq_of_error]
      exact hagain

/-- Side information that is there is not given again, and other is refused again. -/
theorem offer_settles (key : SideKey) (v : Vec α) :
    Stateful.Settles I Retains (offer key v) := by
  have hknown {s : Store α} (h : s.hasSide key = true) : (offer key v).run s = (.ok (), s) := by
    rw [offer, run_bind_of_ok (run_get s), if_pos h]
    rfl
  have hnew {s : Store α} (h : ¬ s.hasSide key = true) :
      (offer key v).run s = (setSide key v).run s := by
    rw [offer, run_bind_of_ok (run_get s), if_neg h]
  rintro s r t u - hrun hu
  by_cases hside : s.hasSide key = true
  · rw [hknown hside] at hrun
    cases hrun
    exact hknown (hu.along.sides key hside)
  · rw [hnew hside, run_setSide] at hrun
    split at hrun
    · cases hrun
      refine hknown (hu.along.sides key ?_)
      rw [hasSide, Table.contains, Table.find?_insert, if_pos BEq.rfl]
      rfl
    · next hsize =>
      cases hrun
      rw [hu.eq_of_error, hnew hside, run_setSide, if_neg hsize]

/-- Offers that were made can be made again. -/
theorem offerAll_settles (offers : List (SideKey × Vec α)) (hI : ∀ s t, Retains s t → I s → I t) :
    Stateful.Settles I Retains (offerAll offers) :=
  .forM hI (fun offered _ => offer_settles offered.1 offered.2)
    fun offered _ => offer_retains offered.1 offered.2

end Store

namespace Recommender

theorem onStore_settles {β : Type} {op : StoreM α β} {I : Store α → Prop}
    (h : Stateful.Settles I Store.Retains op) :
    Stateful.Settles (fun r : Recommender α => I r.store) Continues (onStore op) := by
  intro r outcome t u hr hrun hu
  cases hrun
  have hop := h r.store (op.run r.store).1 (op.run r.store).2 u.store hr rfl
    (hu.imp (congrArg Recommender.store) (.imp_right Continues.retains))
  show (((op.run u.store).1, { u with store := (op.run u.store).2 }) :
    Outcome α β × Recommender α) = _
  rw [hop]
  rfl

omit [Scalar α] in
/-- A name is not changed. -/
theorem tellApart_of_named {id : Id} (h : ∀ serial, id.name ≠ .undefined serial) :
    (tellApart id : RecommenderM α Id) = pure id := by
  unfold tellApart
  split
  · next serial hname => exact absurd hname (h serial)
  · rfl

/-- Makes the names in a column of a frame known. -/
def introduce (ratings : Frame α) (column : String) (kind : FamilyKind) :
    RecommenderM α Unit := do
  let ids ← lift (ratings.ids column)
  (distinct ids).forM fun id => do onStore (Store.touch kind (← tellApart id))

/-- Preparing introduces the users and the items and offers side information. -/
theorem prepare_eq (ratings : Frame α) (sides : List (SideKey × Vec α)) :
    prepare ratings sides = (do
      introduce ratings "user" .userFactors
      introduce ratings "item" .itemFactors
      onStore (Store.offerAll sides)) := by
  simp only [prepare, introduce, bind_assoc]

section

variable {n : Nat}

/-- The size of the factors is a count. -/
def FactorCount (n : Nat) (r : Recommender α) : Prop :=
  r.store.shape.factorSize.count = .ok (n : Int)

theorem Continues.factorCount (r t : Recommender α) (h : Continues r t) (hr : FactorCount n r) :
    FactorCount n t := by
  rw [FactorCount, h.retains.evolves.shape]
  exact hr

/-- Named users and items are introduced once. -/
theorem introduce_settles {ratings : Frame α} (hnamed : ratings.Named) {column : String}
    (hcolumn : column ∈ ["user", "item"]) {kind : FamilyKind} {intercept : Nat}
    (hrole : kind.role = .factors intercept)
    (hmoves : ∀ id, Stateful.Moves Continues (onStore (Store.touch (α := α) kind id))) :
    Stateful.Settles (FactorCount n) Continues (introduce ratings column kind) := by
  refine .bind Continues.factorCount (.lift _) (.lift _) (fun r ids t hrun => ?_)
    fun _ ids _ _ => moves_touchAll tellApart_runs hmoves _
  have hids : ratings.ids column = .ok ids := congrArg Prod.fst hrun
  refine .forM Continues.factorCount (fun id hid => ?_)
    fun id _ => .bind (tellApart_runs id) fun _ told _ _ => hmoves told
  have hname : ∀ serial, id.name ≠ .undefined serial :=
    hnamed column hcolumn ids hids id ((mem_distinct ids).1 hid)
  rw [tellApart_of_named hname, pure_bind]
  exact onStore_settles (Store.touch_settles hrole id)

/-- Preparing for a frame of named users and items can be repeated. -/
theorem prepare_settles {ratings : Frame α} (hnamed : ratings.Named)
    (sides : List (SideKey × Vec α)) :
    Stateful.Settles (FactorCount n) Continues (prepare ratings sides) := by
  have hkeeps (action : Action α) (h : action.forgets = false) : action.forgets = false := h
  have hoffers := offerAll_runs hkeeps sides
  have hintroduce {kind : FamilyKind} (column : String)
      (htouch : ∀ id, Stateful.Moves Continues (onStore (Store.touch (α := α) kind id))) :
      Stateful.Moves Continues (introduce ratings column kind) :=
    .bind (.lift _) fun _ _ _ _ => moves_touchAll tellApart_runs htouch _
  have husers := hintroduce "user" (touchUser_runs hkeeps)
  have hitems := hintroduce "item" (touchItem_runs hkeeps)
  rw [prepare_eq]
  refine .bind Continues.factorCount (introduce_settles hnamed (by simp) rfl ?_) husers ?_ ?_
  · exact touchUser_runs hkeeps
  · intro _ _ _ _
    refine .bind Continues.factorCount (introduce_settles hnamed (by simp) rfl ?_) hitems ?_ ?_
    · exact touchItem_runs hkeeps
    · intro _ _ _ _
      refine onStore_settles (I := fun s => s.shape.factorSize.count = .ok (n : Int)) ?_
      refine Store.offerAll_settles sides fun s t h hs => ?_
      rw [h.evolves.shape]
      exact hs
    · exact fun _ _ _ _ => hoffers
  · exact fun _ _ _ _ => .bind hitems fun _ _ _ _ => hoffers

end

end Recommender

open Recommender

/-- A recommender of a configuration with a count of factors, after any requests, of
which any may have failed.

As many draws were taken as there are entries in the starting factors of all known
users and items, and one more if the classes are ordered.  Every user and every item
is listed once.  The requests are a run of actions on the store, and each user and item
started in one of these actions, from the block of draws at its place.

Preparing for a frame of named users and items a second time gives the same and changes
nothing: at once in any case, and after further requests, unless these forget side
information, if it has succeeded. -/
theorem draws_are_accounted_for {c : LearnerConfig α} {n : Nat}
    (hclasses : ∃ k, (c.setting .classes).count = .ok k)
    (hsize : (c.setting .factorSize).count = .ok (n : Int)) {draws : Draws α}
    {r₀ : Recommender α} (hr : c.recommender draws = .ok r₀) (requests : List (Request α)) :
    let r := served requests r₀
    let first := draws.taken + if r.store.shape.ordinal = true then 1 else 0
    let block := r.store.shape.vectorCount * (n + 3)
    let known := (r.store.owners .userFactors).length + (r.store.owners .itemFactors).length
    r.store.draws = ⟨draws.source, first + known * block⟩ ∧
    (r.store.factors.keys.length = known ∧
      r.store.factors.keys.Pairwise (fun a b => (a == b) = false) ∧
      ∃ actions, r.store = r₀.learner.after actions r₀.store ∧
        ∀ place key, r.store.factors.keys[place]? = some key →
          r₀.learner.Born n r₀.store actions key (first + place * block)) ∧
    ∀ ratings sides, ratings.Named → ∀ outcome t, (prepare ratings sides).run r = (outcome, t) →
      (prepare ratings sides).run t = (outcome, t) ∧
      (outcome = .ok () → ∀ later, (∀ action, Request.act action ∈ later → action.forgets = false) →
        (prepare ratings sides).run (served later t) = (.ok (), served later t)) := by
  intro r first block known
  obtain ⟨kind, shape, hresolve, hshape, -, hstore, -⟩ := LearnerConfig.recommender_eq_ok hr
  have hadmits : shape.Admits kind := LearnerConfig.admits_of_integer hresolve hshape hclasses
  have hcount : shape.factorSize.count = .ok (n : Int) := by
    rw [(LearnerConfig.shape_eq_ok hshape).2.2.1, hsize]
  have hstart : r₀.store.Balanced n (draws.taken + shape.cutDraws) := by
    rw [hstore]
    exact Store.balanced_create hcount draws
  have hnone : r₀.store.factors.keys = [] := by
    rw [hstore]
    rfl
  obtain ⟨actions, hactions⟩ : ∃ actions, r.store = r₀.learner.after actions r₀.store :=
    exists_actions requests r₀
  obtain ⟨hbalanced, hsame, hsource⟩ := r₀.learner.balanced_after hstart actions
  rw [← hactions] at hbalanced hsame hsource
  have hfirst : draws.taken + shape.cutDraws = first := by
    rw [Shape.cutDraws_of_admits hadmits]
    show _ = draws.taken + if r.store.shape.ordinal = true then 1 else 0
    rw [hsame, hstore]
    rfl
  have hknown : r.store.factors.keys.length = known := r.store.length_keys_factors
  refine ⟨?_, ⟨hknown, ?_, actions, hactions, fun place key hkey => ?_⟩, ?_⟩
  · rw [hstore, Store.source_create] at hsource
    have htaken := hbalanced.taken
    rw [hknown, hfirst] at htaken
    calc r.store.draws = ⟨r.store.draws.source, r.store.draws.taken⟩ := rfl
      _ = ⟨draws.source, first + known * block⟩ := by rw [hsource, htaken]; rfl
  · have hevolves : r₀.store.Evolves r.store := by
      rw [hactions]
      exact r₀.learner.after_evolves actions r₀.store
    have hdistinct := hevolves.families.distinct (by rw [hstore]; exact .nil)
    rw [Store.factors, Table.keys_restrict]
    exact hdistinct.filter _
  · rw [hactions] at hkey
    have hborn := r₀.learner.born_after hstart hnone actions hkey
    rw [hfirst, ← hsame] at hborn
    exact hborn
  · intro ratings sides hnamed outcome t hrun
    have hcountNow : FactorCount n r := hbalanced.size
    refine ⟨prepare_settles hnamed sides r outcome t t hcountNow hrun (.inl rfl), ?_⟩
    rintro rfl later hlater
    refine prepare_settles hnamed sides r _ t _ hcountNow hrun (.inr ⟨⟨(), rfl⟩, ?_⟩)
    refine served_runs (fun _ h => h) ?_ t
    rintro _ hrequest action rfl
    exact hlater action hrequest

/-- A recommender that is prepared for a user and an item, and then again. -/
theorem draws_are_accounted_for_rational :
    let c : LearnerConfig ℚ := LearnerConfig.default.set .factorSize (.ofInt 0)
    let ratings : Frame ℚ := ⟨⟨[("user", .ints .signed [1]), ("item", .ints .signed [7])]⟩⟩
    ∃ r₀ t, c.recommender (.ofSource fun _ => 0) = .ok r₀ ∧ t.store.draws.taken = 6 ∧
      (prepare ratings []).run r₀ = (.ok (), t) ∧ (prepare ratings []).run t = (.ok (), t) := by
  intro c ratings
  have hnamed : ratings.Named := by
    intro column hcolumn ids hids id hid serial
    simp only [List.mem_cons, List.not_mem_nil, or_false] at hcolumn
    rcases hcolumn with rfl | rfl
    · cases hids
      rw [List.mem_singleton.1 hid]
      nofun
    · cases hids
      rw [List.mem_singleton.1 hid]
      nofun
  obtain ⟨r₀, hr, hrun, htaken⟩ : ∃ r₀, c.recommender (.ofSource fun _ => 0) = .ok r₀ ∧
      ((prepare ratings []).run r₀).1 = .ok () ∧
        ((prepare ratings []).run r₀).2.store.draws.taken = 6 := ⟨_, rfl, rfl, rfl⟩
  have hprepare : (prepare ratings []).run r₀ = (.ok (), ((prepare ratings []).run r₀).2) :=
    Prod.ext hrun rfl
  refine ⟨r₀, _, hr, htaken, hprepare, ?_⟩
  exact ((draws_are_accounted_for ⟨1, rfl⟩ rfl hr []).2.2 ratings [] hnamed _ _ hprepare).1

/-- A missing user is another one each time that the same frame is prepared. -/
theorem draws_for_missing_names :
    let c : LearnerConfig ℚ := LearnerConfig.default.set .factorSize (.ofInt 0)
    let ratings : Frame ℚ := ⟨⟨[("user", .reals [some 1, none]), ("item", .ints .signed [7, 7])]⟩⟩
    ∃ r₀, c.recommender (.ofSource fun _ => 0) = .ok r₀ ∧
      let t := ((prepare ratings []).run r₀).2
      let u := ((prepare ratings []).run t).2
      ((prepare ratings []).run r₀).1.isOk ∧ ((prepare ratings []).run t).1.isOk ∧
      t.store.draws.taken = 9 ∧ (t.store.owners .userFactors).length = 2 ∧
      u.store.draws.taken = 12 ∧ (u.store.owners .userFactors).length = 3 := by
  intro c ratings
  exact ⟨_, rfl, by decide +kernel, by decide +kernel, by decide +kernel, by decide +kernel,
    by decide +kernel, by decide +kernel⟩

end LatentFactors