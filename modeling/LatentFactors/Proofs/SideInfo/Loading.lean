import LatentFactors.Command.Run
import LatentFactors.Proofs.Algorithm
import LatentFactors.Proofs.Recommender.Preparing
import LatentFactors.Proofs.SideInfo
import LatentFactors.Proofs.Vec.Writing

/-!
# Side information that is loaded fits

The command takes the sizes of the store from the vectors that it loads, and of each kind
only from the first vector.  That is enough, because all vectors of one frame have one size
(`Loaded.offerable`), and because the sizes come after the other parameters
(`setting_sizeField`).  So preparing the recommender attaches what was loaded, unless the
factors of a user or an item cannot be made.
-/

namespace LatentFactors

/-- The vector of some rows has the size that is asked for. -/
theorem Frame.size_sideVector {α : Type} [Scalar α] {f : Frame α} {n : Int} {rows : List Nat}
    {v : Vec α} (h : f.sideVector n rows = .ok v) : (v.size : Int) = n := by
  simp only [Frame.sideVector, Outcome.bind_eq_ok] at h
  obtain ⟨_, -, _, -, _, -, _, -, hv⟩ := h
  exact Vec.size_ofEntries hv

namespace Command.Run

/-! ## Loading -/

/-- Side information as it is loaded: none, or that of a frame with its key columns. -/
def Loaded (owner : SideOwner) (vectors : SideVectors) : Prop :=
  vectors = [] ∨ ∃ (f : Frame Float) (keys : List RowKey),
    f.KeyedBy (keyColumns owner) keys ∧ f.sideVectors (keyColumns owner) none = .ok vectors

/-- Vectors of one size, each for a place of its own. -/
structure Offerable (owner : SideOwner) (vectors : SideVectors) : Prop where
  sizes : ∀ e ∈ vectors, (e.2.size : Int) = sizeFor vectors
  places : ∀ e ∈ vectors, ∃ k, sideKey owner e.1 = .ok k
  distinct : vectors.Pairwise fun a b => a.1.names ≠ b.1.names

theorem sideKey_eq_ok {owner : SideOwner} {key : RowKey} {k : SideKey}
    (h : sideKey owner key = .ok k) : k.owner = owner ∧ k.names = key.names := by
  unfold sideKey at h
  split at h <;> cases h <;> exact ⟨rfl, rfl⟩

/-- A key in the columns of an owner is a place of side information. -/
theorem exists_sideKey {f : Frame Float} {owner : SideOwner} {keys : List RowKey}
    (hf : f.KeyedBy (keyColumns owner) keys) : ∀ key ∈ keys, ∃ k, sideKey owner key = .ok k := by
  cases owner with
  | user =>
    obtain ⟨ids, -, rfl⟩ := hf.reads
    exact List.forall_mem_map.2 fun id _ => ⟨.user id, rfl⟩
  | item =>
    obtain ⟨ids, -, rfl⟩ := hf.reads
    exact List.forall_mem_map.2 fun id _ => ⟨.item id, rfl⟩
  | pair =>
    obtain ⟨-, columns, hcolumns, rfl⟩ := hf.reads
    rw [Outcome.mapM_eq_ok_iff] at hcolumns
    obtain ⟨users, _, husers, hrest, rfl⟩ := List.forall₂_cons_left_iff.1 hcolumns
    obtain ⟨items, _, hitems, hnil, rfl⟩ := List.forall₂_cons_left_iff.1 hrest
    obtain rfl := List.forall₂_nil_left_iff.1 hnil
    refine List.forall_mem_map.2 fun row hrow => ?_
    have hrow := List.mem_range.1 hrow
    obtain ⟨user, huser⟩ : ∃ user, users[row]? = some user :=
      ⟨_, List.getElem?_eq_getElem ((hf.rectangular.length_ids husers).symm ▸ hrow)⟩
    obtain ⟨item, hitem⟩ : ∃ item, items[row]? = some item :=
      ⟨_, List.getElem?_eq_getElem ((hf.rectangular.length_ids hitems).symm ▸ hrow)⟩
    refine ⟨.pair user item, ?_⟩
    simp only [List.filterMap_cons, List.filterMap_nil, huser, hitem]
    rfl

theorem Loaded.offerable {owner : SideOwner} {vectors : SideVectors} (h : Loaded owner vectors) :
    Offerable owner vectors := by
  obtain rfl | ⟨f, keys, hf, hvectors⟩ := h
  · exact ⟨nofun, nofun, .nil⟩
  · obtain ⟨hlists, n, -, hvector⟩ := hf.lists_of_sideVectors hvectors
    have hsize : ∀ e ∈ vectors, (e.2.size : Int) = n := fun e he =>
      Frame.size_sideVector (hvector e he)
    have hdistinct := hlists.distinct
    rw [List.pairwise_map] at hdistinct
    refine ⟨fun e he => ?_, fun e he => ?_, hdistinct⟩
    · cases vectors with
      | nil => cases he
      | cons first rest =>
        exact (hsize e he).trans (hsize first List.mem_cons_self).symm
    · exact exists_sideKey hf e.1 ((hlists.mem_iff e.1).1 (List.mem_map_of_mem he)).1

/-! ## Offering -/

/-- Vectors that can be offered are offered one by one, with their size. -/
theorem Offerable.exists_offers {owner : SideOwner} {vectors : SideVectors}
    (h : Offerable owner vectors) :
    ∃ given, offers owner vectors = .ok given ∧
      (∀ e ∈ given, e.1.owner = owner ∧ (e.2.size : Int) = sizeFor vectors) ∧
      (given.Pairwise fun a b => (a.1 == b.1) = false) ∧
      ∀ e ∈ vectors, ∃ k, sideKey owner e.1 = .ok k ∧ (k, e.2) ∈ given := by
  have hone {e : RowKey × Vec Float} {o : SideKey × Vec Float}
      (ho : (do return (← sideKey owner e.1, e.2)) = Except.ok o) :
      sideKey owner e.1 = .ok o.1 ∧ o.2 = e.2 := by
    obtain ⟨k, hk, ho⟩ := Outcome.bind_eq_ok.1 ho
    cases ho
    exact ⟨hk, rfl⟩
  obtain ⟨given, hgiven⟩ : ∃ given, offers owner vectors = .ok given :=
    Outcome.exists_mapM_ok fun e he => by
      obtain ⟨k, hk⟩ := h.places e he
      exact ⟨(k, e.2), Outcome.bind_eq_ok.2 ⟨k, hk, rfl⟩⟩
  refine ⟨given, hgiven, Outcome.forall_of_mapM hgiven fun e he o ho => ?_, ?_, fun e he => ?_⟩
  · obtain ⟨hk, hv⟩ := hone ho
    exact ⟨(sideKey_eq_ok hk).1, hv ▸ h.sizes e he⟩
  · have hnames : given.map (·.1.names) = vectors.map (·.1.names) :=
      Outcome.map_eq_of_mapM hgiven fun e o ho => (sideKey_eq_ok (hone ho).1).2
    have hdistinct : given.Pairwise fun a b => a.1.names ≠ b.1.names := by
      rw [← List.pairwise_map (f := fun e : SideKey × Vec Float => e.1.names), hnames]
      exact List.pairwise_map.2 h.distinct
    exact hdistinct.imp fun hne => Bool.eq_false_iff.2 fun heq => hne (SideKey.beq_iff.1 heq).2
  · obtain ⟨o, ho, heq⟩ := Outcome.exists_of_mem_mapM hgiven he
    obtain ⟨hk, hv⟩ := hone heq
    exact ⟨o.1, hk, hv ▸ ho⟩

/-! ## Sizes -/

/-- The field for the size of the side information of an owner. -/
def sizeField : SideOwner → Field
  | .user => .userSideSize
  | .item => .itemSideSize
  | .pair => .dynamicSideSize

theorem find?_sideParams (side : SideOwner → SideVectors) (owner : SideOwner) :
    (sideParams (side .user) (side .item) (side .pair)).find? (sizeField owner).name =
      some (.ofInt (sizeFor (side owner))) := by
  cases owner <;> rfl

/-- With side information, the size of each kind is set to that of its vectors, whatever
the parameters say. -/
theorem setting_sizeField {h : Hypothesis} {params : Setting Float} {side : SideOwner → SideVectors}
    {c : LearnerConfig Float}
    (hc : configFor h params (side .user) (side .item) (side .pair) = .ok c)
    {owner : SideOwner} (hne : side owner ≠ []) (other : SideOwner) :
    c.setting (sizeField other) = .ofInt (sizeFor (side other)) := by
  have hsome : ¬((side .user).isEmpty && (side .item).isEmpty && (side .pair).isEmpty) = true := by
    simp only [Bool.and_eq_true, List.isEmpty_iff]
    rintro ⟨⟨huser, hitem⟩, hpair⟩
    cases owner <;> contradiction
  unfold configFor at hc
  rw [if_neg hsome] at hc
  split at hc
  · next entries =>
    have hdistinct : (Table.ofList entries).keys.Pairwise fun a b => (a == b) = false :=
      List.pairwise_map.2 (Table.distinct_ofList entries)
    have hsides : (sideParams (side .user) (side .item) (side .pair)).entries.Pairwise
        fun a b => (a.1 == b.1) = false := Table.distinct_ofList _
    have hfield : sizeField other ∉ Hypothesis.completed := by cases other <;> decide
    rw [Hypothesis.setting_of_config ((Table.goesOn_foldl_insert _ _).distinct hdistinct) hc hfield,
      Table.find?_foldl_insert hsides]
    have hfind : Table.findEntry _ (sideParams _ _ _).entries = _ := find?_sideParams side other
    rw [hfind]
    rfl
  · cases hc

/-- The store has room for what was loaded. -/
theorem sideSize_isExactly {h : Hypothesis} {params : Setting Float}
    {side : SideOwner → SideVectors} {c : LearnerConfig Float}
    (hc : configFor h params (side .user) (side .item) (side .pair) = .ok c) {shape : Shape Float}
    {h' : Hypothesis} (hshape : c.shape h' = .ok shape) {owner : SideOwner}
    (hne : side owner ≠ []) :
    (shape.sideSize owner).isExactly (sizeFor (side owner)) = true := by
  have hsize : shape.sideSize owner = c.setting (sizeField owner) := by
    obtain ⟨-, -, -, huser, hitem, hpair⟩ := LearnerConfig.shape_eq_ok hshape
    cases owner with
    | user => exact huser
    | item => exact hitem
    | pair => exact hpair
  rw [hsize, setting_sizeField hc hne owner]
  exact decide_eq_true rfl

/-! ## Preparing -/

theorem mem_allGiven {given : SideOwner → List (SideKey × Vec Float)} {e : SideKey × Vec Float} :
    e ∈ given .user ++ given .item ++ given .pair ↔ ∃ owner, e ∈ given owner := by
  rw [List.mem_append, List.mem_append]
  constructor
  · rintro ((he | he) | he) <;> exact ⟨_, he⟩
  · rintro ⟨owner, he⟩
    cases owner with
    | user => exact .inl (.inl he)
    | item => exact .inl (.inr he)
    | pair => exact .inr he

/-- Offers of different kinds are for different places. -/
theorem pairwise_allGiven {given : SideOwner → List (SideKey × Vec Float)}
    (howner : ∀ owner, ∀ e ∈ given owner, e.1.owner = owner)
    (hdistinct : ∀ owner, (given owner).Pairwise fun a b => (a.1 == b.1) = false) :
    (given .user ++ given .item ++ given .pair).Pairwise fun a b => (a.1 == b.1) = false := by
  have hcross {owner other : SideOwner} (hne : owner ≠ other) :
      ∀ a ∈ given owner, ∀ b ∈ given other, (a.1 == b.1) = false := by
    intro a ha b hb
    refine Bool.eq_false_iff.2 fun heq => hne ?_
    rw [← howner owner a ha, ← howner other b hb, (SideKey.beq_iff.1 heq).1]
  refine List.pairwise_append.2 ⟨List.pairwise_append.2
    ⟨hdistinct .user, hdistinct .item, hcross (by decide)⟩, hdistinct .pair, fun a ha => ?_⟩
  rcases List.mem_append.1 ha with ha | ha
  · exact hcross (by decide) a ha
  · exact hcross (by decide) a ha

/-- All that is loaded can be offered: it fits, and no place is given twice. -/
theorem exists_given {side : SideOwner → SideVectors}
    (hside : ∀ owner, Loaded owner (side owner)) {h : Hypothesis} {params : Setting Float}
    {c : LearnerConfig Float}
    (hc : configFor h params (side .user) (side .item) (side .pair) = .ok c) {shape : Shape Float}
    {h' : Hypothesis} (hshape : c.shape h' = .ok shape) :
    ∃ given : SideOwner → List (SideKey × Vec Float),
      (∀ owner, offers owner (side owner) = .ok (given owner)) ∧
      let sides := given .user ++ given .item ++ given .pair
      shape.Fits sides ∧ (sides.Pairwise fun a b => (a.1 == b.1) = false) ∧
      ∀ owner, ∀ e ∈ side owner, ∃ k, sideKey owner e.1 = .ok k ∧ (k, e.2) ∈ sides := by
  choose given hgiven hsizes hdistinct hall using fun owner => (hside owner).offerable.exists_offers
  refine ⟨given, hgiven, fun e he => ?_, ?_, fun owner e he => ?_⟩
  · obtain ⟨owner, he⟩ := mem_allGiven.1 he
    obtain ⟨howner, hsize⟩ := hsizes owner e he
    have hne : side owner ≠ [] := fun hnil => by
      have hnone : .ok [] = Except.ok (given owner) := hnil ▸ hgiven owner
      rw [← Except.ok.inj hnone] at he
      cases he
    rw [howner, hsize]
    exact sideSize_isExactly hc hshape hne
  · exact pairwise_allGiven (fun owner e he => (hsizes owner e he).1) hdistinct
  · obtain ⟨k, hk, hoffer⟩ := hall owner e he
    exact ⟨k, hk, mem_allGiven.2 ⟨owner, hoffer⟩⟩

/-- What is loaded fits the recommender that is configured for it.  So preparing it never
fails because of a cardinality, and fails only where it would without side information; it
does not if there are users and items and an array holds the factors.  Preparing attaches
every vector for which there is none yet. -/
theorem loaded_side_information_fits {side : SideOwner → SideVectors}
    (hside : ∀ owner, Loaded owner (side owner)) {h : Hypothesis} {params : Setting Float}
    {c : LearnerConfig Float}
    (hc : configFor h params (side .user) (side .item) (side .pair) = .ok c) {draws : Draws Float}
    {r : Recommender Float} (hr : c.recommender draws = .ok r) :
    ∃ given : SideOwner → List (SideKey × Vec Float),
      (∀ owner, offers owner (side owner) = .ok (given owner)) ∧
      ∀ (train : Frame Float) (t : Recommender Float), t.store.shape = r.store.shape →
        let sides := given .user ++ given .item ++ given .pair
        let prepared := (Recommender.prepare train sides).run t
        (∀ e, prepared.1 = .error e →
          ((Recommender.prepare train []).run t).1 = .error e ∧ e.concernsCardinality = false) ∧
        (prepared.1 = .ok () → ∀ owner, ∀ e ∈ side owner, ∃ k, sideKey owner e.1 = .ok k ∧
          prepared.2.store.sides.find? k = some ((t.store.sides.find? k).getD e.2)) ∧
        ∀ users items, train.ids "user" = .ok users → train.ids "item" = .ok items →
          ∀ n : Nat, (c.setting .factorSize).count = .ok (n : Int) →
            (n + 3 : Int) < arrayLimit → prepared.1 = .ok () := by
  obtain ⟨h', shape, -, hshape, -, hstore, -⟩ := LearnerConfig.recommender_eq_ok hr
  obtain ⟨given, hgiven, hfits, hdistinct, hall⟩ := exists_given hside hc hshape
  refine ⟨given, hgiven, fun train t ht => ?_⟩
  replace ht : t.store.shape = shape := by rw [ht, hstore]; rfl
  rw [← ht] at hfits
  rcases Recommender.run_prepare_of_fits train hfits with
    ⟨e, t', hbare, hprepared, hconcerns⟩ | ⟨t', attached, -, hprepared, hfind⟩
  · simp only [hbare, hprepared]
    refine ⟨fun e' he => ?_, fun hok => ?_, fun users items husers hitems n hn hlimit => ?_⟩
    · cases he
      exact ⟨rfl, hconcerns⟩
    · cases hok
    · have hcount : Recommender.FactorCount n t := by
        obtain ⟨-, -, hfactors, -⟩ := LearnerConfig.shape_eq_ok hshape
        rw [Recommender.FactorCount, ht, hfactors, hn]
      obtain ⟨_, hrun⟩ := Recommender.exists_run_prepare husers hitems hlimit hcount
      rw [hbare] at hrun
      cases hrun
  · simp only [hprepared]
    refine ⟨fun e he => ?_, fun _ owner e he => ?_, fun _ _ _ _ _ _ _ => trivial⟩
    · cases he
    · obtain ⟨k, hk, hoffer⟩ := hall owner e he
      refine ⟨k, hk, ?_⟩
      rw [hfind, Table.findEntry_of_mem hdistinct hoffer]
      cases t.store.sides.find? k <;> rfl

/-- The side information of a frame with one complete key. -/
private theorem exists_loaded_text_aux :
    ∃ v, Loaded .user [(.single (.text "a"), v)] := by
  let f : Frame Float := ⟨⟨[("user", .texts [some "a", none]), ("feature", .ints .signed [1, 4]),
    ("value", .reals [some 2, some 3])]⟩⟩
  let zero : Vec Float := .sparse (.zero 5)
  have hf : f.KeyedBy (keyColumns .user) [.single (.text "a"), .single ⟨.missing, none⟩] := {
    rectangular := by unfold Frame.Rectangular; decide
    reads := ⟨_, rfl, rfl⟩ }
  have hsorted : sortedKeys [.single (.text "a"), .single ⟨.missing, none⟩] =
      [.single (.text "a")] := List.mergeSort_singleton _
  refine ⟨zero.set 1 2 (by decide), .inr ⟨f, _, hf, ?_⟩⟩
  rw [hf.sideVectors_eq, hsorted]
  rfl

/-- The sizes replace one that was given before, and a user that only the side information
knows gets its vector. -/
theorem loaded_side_information_fits_text :
    let params : Setting Float :=
      .table [(Field.factorSize.name, .ofInt 0), (Field.userSideSize.name, .ofInt 7)]
    let train : Frame Float := ⟨⟨[("user", .texts [some "b"]), ("item", .ints .signed [1])]⟩⟩
    ∃ v, Loaded .user [(.single (.text "a"), v)] ∧ ∃ c r given,
      configFor .ols params [(.single (.text "a"), v)] [] [] = .ok c ∧
      c.recommender (.ofSource fun _ => 0) = .ok r ∧
      offers .user [(.single (.text "a"), v)] = .ok given ∧
      let prepared := (Recommender.prepare train given).run r
      prepared.1 = .ok () ∧ prepared.2.store.sides.find? (.user (.text "a")) = some v := by
  intro params train
  obtain ⟨v, hv⟩ := exists_loaded_text_aux
  let side : SideOwner → SideVectors
    | .user => [(.single (.text "a"), v)]
    | .item | .pair => []
  have hside : ∀ owner, Loaded owner (side owner) := fun owner => by
    cases owner with
    | user => exact hv
    | item | pair => exact .inl rfl
  obtain ⟨c, hc⟩ : ∃ c, configFor .ols params (side .user) (side .item) (side .pair) = .ok c :=
    ⟨_, rfl⟩
  obtain ⟨r, hr, hempty⟩ :
      ∃ r, c.recommender (.ofSource fun _ => 0) = .ok r ∧ r.store.sides = .empty := by
    cases hc
    exact ⟨_, Outcome.bind_eq_ok.2 ⟨.ols, Hypothesis.resolve_of_parameter rfl rfl, rfl⟩, rfl⟩
  obtain ⟨given, hgiven, hfits⟩ := loaded_side_information_fits hside hc hr
  obtain ⟨-, hattach, hsucceeds⟩ := hfits train r rfl
  have hitem : [] = given .item := Except.ok.inj (hgiven .item)
  have hpair : [] = given .pair := Except.ok.inj (hgiven .pair)
  rw [← hitem, ← hpair, List.append_nil, List.append_nil] at hattach hsucceeds
  have hsuccess := hsucceeds [.text "b"] [.int 1] rfl rfl 0 (by cases hc; rfl) (by decide)
  obtain ⟨k, hk, hfound⟩ := hattach hsuccess .user _ List.mem_cons_self
  cases hk
  rw [hempty] at hfound
  exact ⟨v, hv, c, r, given .user, hc, hr, hgiven .user, hsuccess, hfound⟩

/-- A number of factors that is no integer, or one that no array has, is found out only when
factors are made, and then nothing is attached.  A frame of two rows that lacks the columns of a
pair takes their names for keys, which are no pairs. -/
theorem loaded_side_information_is_not_attached :
    (∃ v, Loaded .user [(.single (.text "a"), v)] ∧
      ∀ e ∈ [(.ofReal 0, .wrongType), (.ofInt (arrayLimit - 3), .noSize)], ∃ c r given t,
        configFor .ols (.table [(Field.factorSize.name, e.1)])
          [(.single (.text "a"), v)] [] [] = .ok c ∧
        c.recommender (.ofSource fun _ => 0) = .ok r ∧
        offers .user [(.single (.text "a"), v)] = .ok given ∧
        (Recommender.prepare ⟨⟨[("user", .texts [some "b"]), ("item", .ints .signed [1])]⟩⟩
          given).run r = (.error e.2, t) ∧
        t.store.sides.find? (.user (.text "a")) = none) ∧
    ∃ vectors, (⟨⟨[("feature", .ints .signed [0, 0]), ("value", .reals [some 1, some 1])]⟩⟩ :
        Frame Float).sideVectors (keyColumns .pair) none = .ok vectors ∧
      offers .pair vectors = .error .lengthMismatch := by
  constructor
  · obtain ⟨v, hv⟩ := exists_loaded_text_aux
    refine ⟨v, hv, List.forall_mem_cons.2 ⟨?_, List.forall_mem_singleton.2 ?_⟩⟩
    all_goals exact ⟨_, _, _, _, rfl,
      Outcome.bind_eq_ok.2 ⟨.ols, Hypothesis.resolve_of_parameter rfl rfl, rfl⟩, rfl, rfl, rfl⟩
  · let keys := Frame.namedRows ["user", "item"]
    have hsorted : ([.single (.text "user"), .single (.text "item")] : List RowKey).mergeSort
        (fun a b => Id.listAtMost a.ids b.ids) =
          [.single (.text "item"), .single (.text "user")] := by
      have horder : Id.listAtMost [.text "user"] [.text "item"] = false := by decide
      simp [List.mergeSort, RowKey.ids, horder]
    have hvectors (f : Frame Float) (hsize : f.sideSize none = .ok 1)
        (hkeys : f.rowKeys (keyColumns .pair) = .ok keys) : f.sideVectors (keyColumns .pair) none =
          [.single (.text "item"), .single (.text "user")].mapM fun key => do
            return (key, ← f.sideVector 1 (rowsOf key keys)) := by
      rw [Frame.sideVectors, hsize, hkeys, ← hsorted]
      rfl
    rw [hvectors _ rfl rfl]
    exact ⟨_, rfl, rfl⟩

end Command.Run

end LatentFactors
