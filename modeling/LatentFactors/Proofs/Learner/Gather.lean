import LatentFactors.Proofs.Store.Growth
import LatentFactors.Proofs.Store.TwoRuns
import LatentFactors.Learner

/-!
# What a learner gathers

`Learner.gather` reads the factors of a user and an item, and for every side
term the side information and the parameters that apply to it.

* `Learner.moves_gather`: gathering goes along every relation that reading the
  families under `Learner.familyKeys` goes along, and `Learner.couples_gather`
  says the same of two runs.
* `Learner.gather_moves`: only families of the user and the item start,
  whether gathering succeeds or fails.
* `Learner.readFrom_of_run`: what was gathered is what the store holds
  afterwards.  `Gathered.ReadFrom` lists what that means.
* `Learner.exists_gather`: gathering succeeds where the sizes are counts that
  the learner can make vectors of.
-/

namespace LatentFactors

variable {α : Type} [Scalar α]

/-- What was gathered for a user and an item is what a store holds. -/
structure Gathered.ReadFrom (g : Gathered α) (l : Learner α) (user item : Id) (t : Store α) :
    Prop where
  cuts : g.cuts = t.cuts
  users : t.families.find? ⟨.userFactors, user⟩ = some g.users
  items : t.families.find? ⟨.itemFactors, item⟩ = some g.items
  terms : g.terms.map (·.term) = l.sideTerms user item
  parameters : ∀ x ∈ g.terms, t.families.find? x.term.key = some x.parameters
  features : ∀ x ∈ g.terms, t.side x.term.feature = .ok x.feature

omit [Scalar α] in
/-- Terms with the same parameters and related side information. -/
structure GatheredTerm.Related (V : Vec α → Vec α → Prop) (t t' : GatheredTerm α) : Prop where
  term : t'.term = t.term
  parameters : t'.parameters = t.parameters
  feature : V t.feature t'.feature

omit [Scalar α] in
/-- The same families, with thresholds and side information that are related. -/
structure Gathered.Related (P : List α → List α → Prop) (V : Vec α → Vec α → Prop)
    (g g' : Gathered α) : Prop where
  cuts : P g.cuts g'.cuts
  users : g'.users = g.users
  items : g'.items = g.items
  terms : List.Forall₂ (GatheredTerm.Related V) g.terms g'.terms

omit [Scalar α] in
/-- With the same side information, only the thresholds may differ. -/
theorem Gathered.Related.eq_withCuts {P : List α → List α → Prop} {g g' : Gathered α}
    (h : g.Related P Eq g') : g' = { g with cuts := g'.cuts } := by
  have hterms : List.Forall₂ Eq g.terms g'.terms := by
    refine h.terms.imp fun t t' ht => ?_
    obtain ⟨term, parameters, feature⟩ := t'
    obtain ⟨rfl, rfl, rfl⟩ := ht
    rfl
  rw [List.forall₂_eq_eq_eq] at hterms
  obtain ⟨cuts, users, items, terms⟩ := g'
  obtain ⟨-, rfl, rfl, -⟩ := h
  subst hterms
  rfl

/-- The sizes with which a learner can start families: there is room for
factors, which arrays can have, and, if it learns from side information, there
are counts of that which a word holds. -/
structure Learner.Readable (l : Learner α) (shape : Shape α) : Prop where
  factors : ∃ n : Nat, shape.factorSize.count = .ok (n : Int) ∧ (n + 3 : Int) < arrayLimit
  sides : ∀ forUser forItem forDynamic, l.scope = .sideInfo forUser forItem forDynamic →
    ∀ owner, ∃ m : Nat, (shape.sideSize owner).vectorSize = .ok (m : Int) ∧ (m : Int) < signedLimit

/-- The side information that is read does not change while a store grows. -/
theorem Store.Grows.side_eq {user item : Id} {s t : Store α} (h : Grows user item s t)
    (key : SideKey) : t.side key = s.side key := by
  rw [side, side, h.sides, h.shape]

namespace Learner

variable {l : Learner α} {user item : Id}

omit [Scalar α] in
/-- A side term concerns the user or the item, and applies to side information
of the owner that its parameters are for. -/
theorem sideTerms_spec {term : SideTerm α} (h : term ∈ l.sideTerms user item) :
    term.key.Concerns user item ∧ term.key.kind.role = .parameters term.feature.owner ∧
      ∃ forUser forItem forDynamic, l.scope = .sideInfo forUser forItem forDynamic := by
  unfold sideTerms at h
  cases hscope : l.scope with
  | nothing =>
    rw [hscope] at h
    cases h
  | factors =>
    rw [hscope] at h
    cases h
  | sideInfo forUser forItem forDynamic =>
    rw [hscope] at h
    refine ⟨?_, ?_, forUser, forItem, forDynamic, rfl⟩
    · simp only [List.mem_cons, List.not_mem_nil, or_false] at h
      rcases h with rfl | rfl | rfl | rfl <;> rfl
    · simp only [List.mem_cons, List.not_mem_nil, or_false] at h
      rcases h with rfl | rfl | rfl | rfl <;> rfl

omit [Scalar α] in
theorem term_mem_sideTerms {terms : List (GatheredTerm α)}
    (h : terms.map (·.term) = l.sideTerms user item) {x : GatheredTerm α} (hx : x ∈ terms) :
    x.term ∈ l.sideTerms user item := by
  rw [← h]
  exact List.mem_map_of_mem hx

/-- The families that a user and an item need. -/
def familyKeys (l : Learner α) (user item : Id) : List FamilyKey :=
  ⟨.userFactors, user⟩ :: ⟨.itemFactors, item⟩ :: (l.sideTerms user item).map (·.key)

omit [Scalar α] in
theorem mem_familyKeys {key : FamilyKey} :
    key ∈ l.familyKeys user item ↔
      key = ⟨.userFactors, user⟩ ∨ key = ⟨.itemFactors, item⟩ ∨
        ∃ term ∈ l.sideTerms user item, term.key = key := by
  rw [familyKeys, List.mem_cons, List.mem_cons, List.mem_map]

omit [Scalar α] in
theorem key_mem_familyKeys {term : SideTerm α} (h : term ∈ l.sideTerms user item) :
    term.key ∈ l.familyKeys user item :=
  mem_familyKeys.2 (.inr (.inr ⟨term, h, rfl⟩))

omit [Scalar α] in
/-- They belong to the user or to the item. -/
theorem concerns_of_mem_familyKeys {key : FamilyKey} (h : key ∈ l.familyKeys user item) :
    key.Concerns user item := by
  rcases mem_familyKeys.1 h with rfl | rfl | ⟨term, hterm, rfl⟩
  · rfl
  · rfl
  · exact (sideTerms_spec hterm).1

omit [Scalar α] in
/-- The factors among the families of a user and an item are those of both. -/
theorem hasFactors_familyKeys {s : Store α}
    (huser : s.hasFamily .userFactors user = true)
    (hitem : s.hasFamily .itemFactors item = true) : s.HasFactors (l.familyKeys user item) := by
  intro key hkey intercept hrole
  rcases mem_familyKeys.1 hkey with rfl | rfl | ⟨term, hterm, rfl⟩
  · exact huser
  · exact hitem
  · rw [(sideTerms_spec hterm).2.1] at hrole
    cases hrole

omit [Scalar α] in
/-- A side term applies to side information of the user, of the item or of both. -/
theorem ofOwner_feature {term : SideTerm α} (h : term ∈ l.sideTerms user item) :
    SideKey.ofOwner user item term.feature.owner = term.feature := by
  unfold sideTerms at h
  split at h
  · simp only [List.mem_cons, List.not_mem_nil, or_false] at h
    rcases h with rfl | rfl | rfl | rfl <;> rfl
  · cases h
  · cases h

omit [Scalar α] in
/-- With side information there is a side term for every owner. -/
theorem exists_term_of_owner {forUser forItem forDynamic : Setting α}
    (h : l.scope = .sideInfo forUser forItem forDynamic) (owner : SideOwner) :
    ∃ term ∈ l.sideTerms user item, term.feature = .ofOwner user item owner := by
  rw [sideTerms, h]
  cases owner <;> simp [SideKey.ofOwner]

omit [Scalar α] in
/-- With side information, what is known for every side term is known for every owner. -/
theorem forall_owner {p : SideKey → Prop} {forUser forItem forDynamic : Setting α}
    (hscope : l.scope = .sideInfo forUser forItem forDynamic)
    (h : ∀ term ∈ l.sideTerms user item, p term.feature) (owner : SideOwner) :
    p (.ofOwner user item owner) := by
  obtain ⟨term, hterm, hfeature⟩ := exists_term_of_owner hscope owner
  exact hfeature ▸ h term hterm

/-- The side information of the terms is that of their owners. -/
theorem exists_sidesOf {s : Store α} {features : List (SideTerm α × Vec α)}
    {forUser forItem forDynamic : Setting α}
    (hscope : l.scope = .sideInfo forUser forItem forDynamic)
    (hterms : features.map (·.1) = l.sideTerms user item)
    (hsides : ∀ pair ∈ features, s.side pair.1.feature = .ok pair.2) :
    ∃ vectors, s.sidesOf user item = .ok vectors ∧
      (l.sideTerms user item).map (fun term => (term, vectors term.feature.owner)) = features := by
  have hread : ∀ term ∈ l.sideTerms user item, ∃ v, s.side term.feature = .ok v := by
    rw [← hterms, List.forall_mem_map]
    exact fun pair hpair => ⟨pair.2, hsides pair hpair⟩
  choose vectors hvectors using forall_owner (p := fun key => ∃ v, s.side key = .ok v) hscope hread
  refine ⟨vectors, Store.sidesOf_eq_ok_iff.2 hvectors, ?_⟩
  rw [← hterms, List.map_map]
  refine (List.map_congr_left fun pair hpair => ?_).trans (List.map_id features)
  have hterm : pair.1 ∈ l.sideTerms user item := by
    rw [← hterms]
    exact List.mem_map_of_mem hpair
  have hvector := hvectors pair.1.feature.owner
  rw [ofOwner_feature hterm, hsides pair hpair] at hvector
  injection hvector with hvector
  exact Prod.ext rfl hvector.symm

/-- The side information that is read is that of the side terms. -/
theorem features_eq_ok_iff {s : Store α} {features : List (SideTerm α × Vec α)} :
    l.features user item s = .ok features ↔
      features.map (·.1) = l.sideTerms user item ∧
        ∀ pair ∈ features, s.side pair.1.feature = .ok pair.2 := by
  have hnone (hterms : l.sideTerms user item = []) :
      Except.ok [] = (Except.ok features : Outcome α _) ↔
        features.map (·.1) = l.sideTerms user item ∧
          ∀ pair ∈ features, s.side pair.1.feature = .ok pair.2 := by
    rw [hterms, List.map_eq_nil_iff, Except.ok.injEq]
    constructor
    · rintro rfl
      exact ⟨rfl, List.forall_mem_nil _⟩
    · exact fun h => h.1.symm
  rw [Learner.features]
  split
  · next hscope => exact hnone (by rw [sideTerms, hscope])
  · next hscope => exact hnone (by rw [sideTerms, hscope])
  · next hscope =>
    rw [Outcome.bind_eq_ok]
    constructor
    · rintro ⟨vectors, hvectors, h⟩
      cases h
      rw [Store.sidesOf_eq_ok_iff] at hvectors
      refine ⟨by simp [Function.comp_def], fun pair hpair => ?_⟩
      obtain ⟨term, hterm, rfl⟩ := List.mem_map.1 hpair
      have hvector := hvectors term.feature.owner
      rwa [ofOwner_feature hterm] at hvector
    · rintro ⟨hterms, hsides⟩
      obtain ⟨vectors, hvectors, hfeatures⟩ := exists_sidesOf hscope hterms hsides
      exact ⟨vectors, hvectors, congrArg Except.ok hfeatures⟩

/-- From two stores the same side terms are read, with related side information, if that
of every term is. -/
theorem features_agree {V : Vec α → Vec α → Prop} {s s' : Store α}
    (h : ∀ term ∈ l.sideTerms user item,
      Outcome.Agree V (s.side term.feature) (s'.side term.feature)) :
    Outcome.Agree
      (List.Forall₂ fun pair pair' =>
        pair.1 ∈ l.sideTerms user item ∧ pair'.1 = pair.1 ∧ V pair.2 pair'.2)
      (l.features user item s) (l.features user item s') := by
  rw [Learner.features, Learner.features]
  split
  · exact .ok .nil
  · exact .ok .nil
  · next hscope =>
    have howner :=
      forall_owner (p := fun key => Outcome.Agree V (s.side key) (s'.side key)) hscope h
    refine (Store.sidesOf_agree howner).bind fun vectors vectors' hvectors => .ok ?_
    rw [List.forall₂_map_left_iff, List.forall₂_map_right_iff, List.forall₂_same]
    exact fun term hterm => ⟨hterm, rfl, hvectors term.feature.owner⟩

/-- Reads the parameters of a side term. -/
def readTerm (pair : SideTerm α × Vec α) : StoreM α (GatheredTerm α) := do
  return ⟨pair.1, ← Store.family pair.1.key.kind pair.1.key.owner, pair.2⟩

section Moves

variable {R : Store α → Store α → Prop} [IsPreorder (Store α) R]

theorem moves_readTerm
    (hR : ∀ key ∈ l.familyKeys user item, Store.Moves R (Store.family (α := α) key.kind key.owner))
    {features : List (SideTerm α × Vec α)} (h : features.map (·.1) = l.sideTerms user item)
    {pair : SideTerm α × Vec α} (hpair : pair ∈ features) : Store.Moves R (readTerm pair) := by
  have hterm : pair.1 ∈ l.sideTerms user item := by
    rw [← h]
    exact List.mem_map_of_mem hpair
  exact .bind (hR pair.1.key (key_mem_familyKeys hterm)) fun _ _ _ _ => .pure _

/-- Gathering goes along every relation that reading the families of the user
and the item goes along, whether it succeeds or fails. -/
theorem moves_gather
    (hR : ∀ key ∈ l.familyKeys user item,
      Store.Moves R (Store.family (α := α) key.kind key.owner)) :
    Store.Moves R (l.gather user item) := by
  refine .bind (hR _ (mem_familyKeys.2 (.inl rfl))) fun _ _ _ _ => ?_
  refine .bind (hR _ (mem_familyKeys.2 (.inr (.inl rfl)))) fun _ _ _ _ => ?_
  refine .bind .get fun _ s _ _ => ?_
  refine .bind (.lift _) fun u features u' hrun => ?_
  refine .bind (.mapM fun pair hpair => ?_) fun _ _ _ _ => .pure _
  rw [Store.run_lift] at hrun
  exact moves_readTerm hR (features_eq_ok_iff.1 (congrArg Prod.fst hrun)).1 hpair

end Moves

/-- From related stores related things are gathered, if the families read there are
related and the side information is. -/
theorem couples_gather_of {R : Store α → Store α → Prop} {F : Family α → Family α → Prop}
    {V : Vec α → Vec α → Prop} {Q : Gathered α → Gathered α → Prop}
    (hfamily : ∀ key ∈ l.familyKeys user item,
      Store.Couples R F (Store.family key.kind key.owner) (Store.family key.kind key.owner))
    (hside : ∀ s s', R s s' → ∀ term ∈ l.sideTerms user item,
      Outcome.Agree V (s.side term.feature) (s'.side term.feature))
    (hgathered : ∀ s s' users users' items items' terms terms', R s s' → F users users' →
      F items items' → List.Forall₂ (fun t t' : GatheredTerm α => t'.term = t.term ∧
        F t.parameters t'.parameters ∧ V t.feature t'.feature) terms terms' →
      Q ⟨s.cuts, users, items, terms⟩ ⟨s'.cuts, users', items', terms'⟩) :
    Store.Couples R Q (l.gather user item) (l.gather user item) := by
  refine .bind (hfamily _ (mem_familyKeys.2 (.inl rfl))) fun users users' husers => ?_
  refine .bind (hfamily _ (mem_familyKeys.2 (.inr (.inl rfl)))) fun items items' hitems => ?_
  refine .bind .get fun s s' hs => ?_
  refine .bind (.lift_agree (features_agree (hside s s' hs))) fun features features' h => ?_
  have hterms : Store.Couples R (List.Forall₂ fun t t' : GatheredTerm α => t'.term = t.term ∧
      F t.parameters t'.parameters ∧ V t.feature t'.feature)
      (features.mapM readTerm) (features'.mapM readTerm) := by
    refine .mapM_forall₂ (h.imp ?_)
    rintro ⟨term, feature⟩ ⟨_, feature'⟩ ⟨hterm, rfl, hV⟩
    refine .bind (hfamily _ (key_mem_familyKeys hterm)) fun parameters parameters' hF => ?_
    exact .pure ⟨rfl, hF, hV⟩
  exact .bind hterms fun terms terms' hterms =>
    .pure (hgathered s s' users users' items items' terms terms' hs husers hitems hterms)

/-- From related stores the same families are gathered, and thresholds and side
information that are related, if the families read the same there. -/
theorem couples_gather {R : Store α → Store α → Prop} {P : List α → List α → Prop}
    {V : Vec α → Vec α → Prop}
    (hfamily : ∀ key ∈ l.familyKeys user item,
      Store.Couples R Eq (Store.family key.kind key.owner) (Store.family key.kind key.owner))
    (hside : ∀ s s', R s s' → ∀ term ∈ l.sideTerms user item,
      Outcome.Agree V (s.side term.feature) (s'.side term.feature))
    (hcuts : ∀ s s', R s s' → P s.cuts s'.cuts) :
    Store.Couples R (Gathered.Related P V) (l.gather user item) (l.gather user item) := by
  refine couples_gather_of hfamily hside ?_
  rintro s s' users _ items _ terms terms' hs rfl rfl hterms
  exact ⟨hcuts s s' hs, rfl, rfl, hterms.imp fun t t' h => ⟨h.1, h.2.1.symm, h.2.2⟩⟩

/-- Gathering only starts families of the user and the item, whether it
succeeds or fails. -/
theorem gather_moves (l : Learner α) (user item : Id) :
    Store.Moves (Store.Grows user item) (l.gather user item) :=
  moves_gather fun _ hkey => Store.family_moves (concerns_of_mem_familyKeys hkey)

/-- The parameters are read for the side information, term by term, and held afterwards. -/
theorem readTerms_of_run {s t : Store α} {features : List (SideTerm α × Vec α)}
    {terms : List (GatheredTerm α)} (hmap : features.map (·.1) = l.sideTerms user item)
    (h : (features.mapM readTerm).run s = (.ok terms, t)) :
    Store.Grows user item s t ∧ features = terms.map (fun x => (x.term, x.feature)) ∧
      ∀ x ∈ terms, t.families.find? x.term.key = some x.parameters := by
  have hmoves : ∀ pair ∈ features, Store.Moves (Store.Grows user item) (readTerm pair) :=
    fun pair hpair =>
      moves_readTerm (fun _ hkey => Store.family_moves (concerns_of_mem_familyKeys hkey)) hmap hpair
  have hread : List.Forall₂ (fun pair (x : GatheredTerm α) => pair = (x.term, x.feature) ∧
      t.families.find? x.term.key = some x.parameters) features terms := by
    refine Stateful.Moves.forall₂_of_run_mapM (R := Store.Grows user item)
      (P := fun pair x u => pair = (x.term, x.feature) ∧
        u.families.find? x.term.key = some x.parameters) ?_ ?_ hmoves h
    · intro pair u x u' hrun
      obtain ⟨vectors, v, hvectors, hrun⟩ := Store.run_bind_eq_ok.1 hrun
      cases hrun
      exact ⟨rfl, Store.find?_of_run_family hvectors⟩
    · rintro pair x u u' hgrows ⟨hpair, hfind⟩
      exact ⟨hpair, hgrows.find?_eq_some hfind⟩
  have hpairs : features = terms.map fun x => (x.term, x.feature) := by
    have heq : List.Forall₂ Eq features (terms.map fun x => (x.term, x.feature)) :=
      List.forall₂_map_right_iff.2 (hread.imp fun _ _ h => h.1)
    rwa [List.forall₂_eq_eq_eq] at heq
  rw [hpairs, List.forall₂_map_left_iff, List.forall₂_same] at hread
  exact ⟨(Stateful.Moves.mapM hmoves).of_run h, hpairs, fun x hx => (hread x hx).2⟩

/-- What was gathered is what the store holds afterwards. -/
theorem readFrom_of_run {s t : Store α} {g : Gathered α}
    (h : (l.gather user item).run s = (.ok g, t)) : g.ReadFrom l user item t := by
  rw [gather] at h
  obtain ⟨users, s₁, husers, h⟩ := Store.run_bind_eq_ok.1 h
  obtain ⟨items, s₂, hitems, h⟩ := Store.run_bind_eq_ok.1 h
  obtain ⟨_, _, hget, h⟩ := Store.run_bind_eq_ok.1 h
  cases hget
  obtain ⟨features, _, hlift, h⟩ := Store.run_bind_eq_ok.1 h
  rw [Store.run_lift] at hlift
  obtain ⟨hfeatures, rfl⟩ := Prod.mk.inj hlift
  obtain ⟨terms, _, hterms, h⟩ := Store.run_bind_eq_ok.1 h
  cases h
  obtain ⟨hmap, hside⟩ := features_eq_ok_iff.1 hfeatures
  obtain ⟨hlast, hpairs, hparameters⟩ := readTerms_of_run hmap hterms
  have hitem : FamilyKey.Concerns ⟨.itemFactors, item⟩ user item := rfl
  have hfirst : Store.Grows user item s₁ s₂ := (Store.family_moves hitem).of_run hitems
  refine ⟨hlast.cuts.symm, ?_, ?_, ?_, hparameters, ?_⟩
  · exact hlast.find?_eq_some (hfirst.find?_eq_some (Store.find?_of_run_family husers))
  · exact hlast.find?_eq_some (Store.find?_of_run_family hitems)
  · rw [← hmap, hpairs, List.map_map]
    rfl
  · intro x hx
    rw [hlast.side_eq]
    refine hside (x.term, x.feature) ?_
    rw [hpairs]
    exact List.mem_map_of_mem hx

private theorem canStart_term_aux {s : Store α} (h : l.Readable s.shape) {term : SideTerm α}
    (hterm : term ∈ l.sideTerms user item) : s.shape.CanStart term.key.kind := by
  obtain ⟨-, hrole, forUser, forItem, forDynamic, hscope⟩ := sideTerms_spec hterm
  obtain ⟨m, hm, -⟩ := h.sides forUser forItem forDynamic hscope term.feature.owner
  rw [Shape.CanStart, hrole]
  exact ⟨m, hm⟩

private theorem exists_features_aux {s : Store α} (h : l.Readable s.shape) (user item : Id) :
    ∃ features, l.features user item s = .ok features := by
  rw [Learner.features]
  split
  · exact ⟨_, rfl⟩
  · exact ⟨_, rfl⟩
  · next hscope =>
    have howner (owner : SideOwner) : ∃ v, s.side (.ofOwner user item owner) = .ok v := by
      rw [Store.side]
      cases s.sides.find? (.ofOwner user item owner) with
      | some v => exact ⟨v, rfl⟩
      | none =>
        obtain ⟨m, hm, -⟩ := h.sides _ _ _ hscope (SideKey.ofOwner user item owner).owner
        refine ⟨.sparse (.zero m), ?_⟩
        dsimp only
        rw [hm, Outcome.bind_ok, Vec.sparseZero_natCast]
    choose vectors hvectors using howner
    exact ⟨_, Outcome.bind_eq_ok.2 ⟨vectors, Store.sidesOf_eq_ok_iff.2 hvectors, rfl⟩⟩

/-- Gathering succeeds where the sizes are counts that the learner can make
vectors of. -/
theorem exists_gather {s : Store α} (h : l.Readable s.shape) (user item : Id) :
    ∃ g t, (l.gather user item).run s = (.ok g, t) := by
  obtain ⟨n, hn, hlimit⟩ := h.factors
  have husers : s.shape.CanStart .userFactors := Shape.canStart_of_count hn hlimit rfl
  have hitems : s.shape.CanStart .itemFactors := Shape.canStart_of_count hn hlimit rfl
  obtain ⟨users, s₁, hrun₁, hshape₁⟩ := Store.exists_run_family husers user
  rw [← hshape₁] at h hitems
  obtain ⟨items, s₂, hrun₂, hshape₂⟩ := Store.exists_run_family hitems item
  rw [← hshape₂] at h
  obtain ⟨features, hfeatures⟩ := exists_features_aux h user item
  obtain ⟨hmap, -⟩ := features_eq_ok_iff.1 hfeatures
  obtain ⟨terms, s₃, hrun₃, -⟩ : ∃ terms s₃,
      (features.mapM readTerm).run s₂ = (.ok terms, s₃) ∧ s₃.shape = s₂.shape := by
    refine Stateful.exists_run_mapM (I := fun t : Store α => t.shape = s₂.shape) ?_ rfl
    intro pair hpair t hshape
    have hterm : pair.1 ∈ l.sideTerms user item := by
      rw [← hmap]
      exact List.mem_map_of_mem hpair
    have hstart := canStart_term_aux h hterm
    rw [← hshape] at hstart
    obtain ⟨vectors, u, hrun, hu⟩ := Store.exists_run_family hstart pair.1.key.owner
    refine ⟨⟨pair.1, vectors, pair.2⟩, u, ?_, hu.trans hshape⟩
    rw [readTerm, Store.run_bind_of_ok hrun]
    rfl
  refine ⟨⟨s₂.cuts, users, items, terms⟩, s₃, ?_⟩
  rw [gather, Store.run_bind_of_ok hrun₁, Store.run_bind_of_ok hrun₂,
    Store.run_bind_of_ok (Store.run_get s₂), hfeatures,
    Store.run_bind_of_ok (Store.run_lift _ s₂)]
  exact Store.run_bind_of_ok hrun₃ _

end Learner

end LatentFactors
