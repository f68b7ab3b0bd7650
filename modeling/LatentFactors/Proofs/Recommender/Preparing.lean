import LatentFactors.Proofs.Recommender.Accounting

/-!
# Preparing with side information

Preparing makes the users and items of a frame known, and then offers side information.
If what is offered has the cardinality of its kind, then offering succeeds: it attaches
everything that has not been given yet (`Store.exists_run_offerAll`).

So preparing with such offers fails exactly where preparing without offers fails, and in the
same way (`Recommender.run_prepare_of_fits`), which is never about a cardinality
(`Recommender.introduce_fails`).
-/

namespace LatentFactors

variable {α : Type} [Scalar α]

/-- Whether a fault is about the cardinality of a vector. -/
def Fault.concernsCardinality : Fault α → Bool
  | .cardinalityMismatch .. | .parameterMismatch .. | .sideCardinality .. => true
  | _ => false

/-- Side information that has the cardinality of its kind. -/
def Shape.Fits (shape : Shape α) (offers : List (SideKey × Vec α)) : Prop :=
  ∀ e ∈ offers, (shape.sideSize e.1.owner).isExactly e.2.size = true

namespace Store

/-! ## Offering -/

/-- Side information that fits is attached, unless there is some already. -/
theorem exists_run_offer {s : Store α} {key : SideKey} {v : Vec α}
    (h : (s.shape.sideSize key.owner).isExactly v.size = true) :
    ∃ sides, (offer key v).run s = (.ok (), { s with sides }) ∧
      ∀ k, sides.find? k = (s.sides.find? k).or (if key == k then some v else none) := by
  by_cases hside : s.hasSide key = true
  · refine ⟨s.sides, ?_, fun k => ?_⟩
    · rw [offer, run_bind_of_ok (run_get s), if_pos hside]
      rfl
    · by_cases hk : (key == k) = true
      · obtain ⟨w, hw⟩ := Option.isSome_iff_exists.1 hside
        rw [← Table.find?_congr s.sides hk, hw]
        rfl
      · rw [if_neg hk, Option.or_none]
  · refine ⟨s.sides.insert key v, ?_, fun k => ?_⟩
    · rw [offer, run_bind_of_ok (run_get s), if_neg hside, run_setSide, if_pos h]
    · rw [Table.find?_insert]
      by_cases hk : (key == k) = true
      · have hnone : s.sides.find? k = none := by
          rw [← Table.find?_congr s.sides hk]
          exact Option.not_isSome_iff_eq_none.1 hside
        rw [if_pos hk, if_pos hk, hnone]
        rfl
      · rw [if_neg hk, if_neg hk, Option.or_none]

/-- Offers that fit are attached one by one: the first one for a place that has nothing. -/
theorem exists_run_offerAll {offers : List (SideKey × Vec α)} {s : Store α}
    (h : s.shape.Fits offers) :
    ∃ sides, (offerAll offers).run s = (.ok (), { s with sides }) ∧
      ∀ k, sides.find? k = (s.sides.find? k).or (Table.findEntry k offers) := by
  induction offers generalizing s with
  | nil => exact ⟨s.sides, rfl, fun k => Option.or_none.symm⟩
  | cons e rest ih =>
    obtain ⟨sides, hrun, hfind⟩ := exists_run_offer (h e List.mem_cons_self)
    have hrest : Shape.Fits { s with sides }.shape rest :=
      fun o ho => h o (List.mem_cons_of_mem e ho)
    obtain ⟨sides', hrun', hfind'⟩ := ih hrest
    refine ⟨sides', ?_, fun k => ?_⟩
    · exact (run_bind_of_ok hrun _).trans hrun'
    · rw [hfind', hfind, Table.findEntry, Option.or_assoc]
      split <;> rfl

/-! ## What may go wrong with factors -/

omit [Scalar α] in
theorem count_fails {s : Setting α} {e : Fault α} (h : s.count = .error e) :
    e.concernsCardinality = false := by
  cases s with
  | number y =>
    cases y with
    | integer n => cases h
    | real x =>
      cases h
      rfl
  | flag b => cases h
  | text | absent | list | table =>
    cases h
    rfl

theorem put_fails {v : Vec α} {i : Int} {x : α} {e : Fault α} (h : v.put i x = .error e) :
    e.concernsCardinality = false := by
  rw [Vec.put] at h
  split at h
  · cases h
  · cases h
    cases v with
    | dense xs =>
      rw [Vec.outside, indexFault]
      split <;> rfl
    | sparse v => rfl

omit [Scalar α] in
theorem checkArray_fails {size : Int} {e : Fault α} (h : checkArray size = .error e) :
    e.concernsCardinality = false := by
  rw [checkArray] at h
  split at h
  · cases h
    rfl
  · split at h
    · cases h
      rfl
    · cases h

theorem drawVector_fails (intercept : Nat) :
    Stateful.Fails (·.concernsCardinality = false) (drawVector (α := α) intercept) := by
  refine .bind .get fun s => .bind (.lift fun e he => count_fails he) fun size =>
    .bind (.lift fun e he => checkArray_fails he) fun _ =>
      .bind (fun _ _ he => nomatch he) fun _ => .lift fun e he => ?_
  generalize hv : Vec.dense _ = v at he
  cases hput : v.put 0 0 with
  | error e' =>
    rw [hput] at he
    cases he
    exact put_fails hput
  | ok w =>
    rw [hput] at he
    exact put_fails he

/-- Making factors known does not fail because of a cardinality. -/
theorem touch_fails {kind : FamilyKind} {intercept : Nat} (hrole : kind.role = .factors intercept)
    (owner : Id) :
    Stateful.Fails (·.concernsCardinality = false) (touch (α := α) kind owner) := by
  have hfresh : Stateful.Fails (·.concernsCardinality = false) (freshFamily (α := α) kind) := by
    intro s e he
    rw [freshFamily_eq, hrole] at he
    exact Stateful.Fails.mapM drawVector_fails _ s e he
  refine .bind (.bind .get fun s => ?_) fun _ => .pure _
  split
  · exact .pure _
  · exact .bind hfresh fun _ => .bind (fun _ _ he => nomatch he) fun _ => .pure _

end Store

namespace Recommender

/-! ## Making users and items known -/

omit [Scalar α] in
theorem run_onStore {β : Type} {op : StoreM α β} {r : Recommender α} {outcome : Outcome α β}
    {s : Store α} (h : op.run r.store = (outcome, s)) :
    (onStore op).run r = (outcome, { r with store := s }) :=
  congrArg (fun run : Outcome α β × Store α =>
    (run.1, ({ r with store := run.2 } : Recommender α))) h

theorem introduce_fails (ratings : Frame α) (column : String) (kind : FamilyKind) {intercept : Nat}
    (hrole : kind.role = .factors intercept) :
    Stateful.Fails (·.concernsCardinality = false) (introduce ratings column kind) := by
  refine .bind (.lift fun e he => ?_) fun ids => .forM (fun id => .bind ?_ fun told => ?_) _
  · rw [Frame.ids, Frame.column] at he
    split at he
    · cases he
    · cases he
      rfl
  · unfold tellApart
    split
    · exact .bind (fun _ _ he => nomatch he) fun _ => .bind .get fun _ => .pure _
    · exact .pure id
  · exact fun r e he => Store.touch_fails hrole told r.store e he

/-- What making users and items known leaves alone. -/
def SameSides (r t : Recommender α) : Prop :=
  t.store.shape = r.store.shape ∧ t.store.sides = r.store.sides

instance : IsPreorder (Recommender α) SameSides where
  refl _ := ⟨rfl, rfl⟩
  trans _ _ _ h h' := ⟨h'.1.trans h.1, h'.2.trans h.2⟩

theorem introduce_sameSides (ratings : Frame α) (column : String) (kind : FamilyKind) :
    Stateful.Moves SameSides (introduce ratings column kind) := by
  refine .bind (.lift _) fun _ ids _ _ => .forM fun id _ => .bind ?_ fun _ told _ _ => ?_
  · unfold tellApart
    split
    · exact .bind (fun _ => ⟨rfl, rfl⟩) fun _ _ _ _ => .bind .get fun _ _ _ _ => .pure _
    · exact .pure id
  · intro r
    have hgrows := Store.touch_moves kind told r.store
    exact ⟨hgrows.shape, hgrows.sides⟩

omit [Scalar α] in
/-- A name is told apart without touching the store. -/
theorem exists_run_tellApart (id : Id) (r : Recommender α) :
    ∃ told t, (tellApart id).run r = (.ok told, t) ∧ t.store = r.store := by
  unfold tellApart
  split
  · exact ⟨_, _, rfl, rfl⟩
  · exact ⟨id, r, rfl, rfl⟩

/-- Users and items can be made known if an array holds the factors. -/
theorem exists_run_introduce {ratings : Frame α} {column : String} {ids : List Id}
    (hids : ratings.ids column = .ok ids) (kind : FamilyKind) {intercept n : Nat}
    (hrole : kind.role = .factors intercept) (hlimit : (n + 3 : Int) < arrayLimit)
    {r : Recommender α} (hr : FactorCount n r) :
    ∃ t, (introduce ratings column kind).run r = (.ok (), t) ∧ FactorCount n t := by
  have hone (id : Id) (r : Recommender α) (hr : FactorCount n r) :
      ∃ y t, (do onStore (Store.touch kind (← tellApart id))).run r = (.ok y, t) ∧
        FactorCount n t := by
    obtain ⟨told, t, htold, hstore⟩ := exists_run_tellApart id r
    rw [FactorCount, ← hstore] at hr
    obtain ⟨vectors, s, hfamily, hshape⟩ :=
      Store.exists_run_family (Shape.canStart_of_count hr hlimit hrole) told
    have htouch : (Store.touch kind told).run t.store = (.ok (), s) :=
      Store.run_bind_of_ok hfamily _
    refine ⟨(), { t with store := s }, ?_, ?_⟩
    · rw [Stateful.run_bind_of_ok htold]
      exact run_onStore htouch
    · rw [FactorCount, hshape]
      exact hr
  obtain ⟨ys, t, hrun, ht⟩ :=
    Stateful.exists_run_mapM (fun id (_ : id ∈ distinct ids) r hr => hone id r hr) hr
  refine ⟨t, ?_, ht⟩
  have hlift : (lift (ratings.ids column) : RecommenderM α (List Id)).run r = (.ok ids, r) := by
    rw [hids]
    rfl
  rw [introduce, Stateful.run_bind_of_ok hlift, Stateful.forM_eq_mapM,
    Stateful.run_bind_of_ok hrun]
  rfl

/-! ## Preparing -/

/-- Preparing offers side information to what preparing without it gives. -/
theorem run_prepare (ratings : Frame α) (sides : List (SideKey × Vec α)) (r : Recommender α) :
    (prepare ratings sides).run r =
      match (prepare ratings []).run r with
      | (.ok _, t) => (onStore (Store.offerAll sides)).run t
      | (.error e, t) => (.error e, t) := by
  obtain ⟨known, hknown⟩ : ∃ known : RecommenderM α Unit, ∀ offers, prepare ratings offers =
      known >>= fun _ => onStore (Store.offerAll offers) :=
    ⟨do introduce ratings "user" .userFactors; introduce ratings "item" .itemFactors,
      fun offers => by rw [prepare_eq, bind_assoc]⟩
  rw [hknown, hknown, Stateful.run_bind known, Stateful.run_bind known]
  rcases known.run r with ⟨e | b, t⟩ <;> rfl

/-- Preparing with side information that fits fails where preparing without it fails, and
otherwise attaches what has not been given yet. -/
theorem run_prepare_of_fits (ratings : Frame α) {sides : List (SideKey × Vec α)} {r : Recommender α}
    (h : r.store.shape.Fits sides) :
    (∃ e t, (prepare ratings []).run r = (.error e, t) ∧
      (prepare ratings sides).run r = (.error e, t) ∧ e.concernsCardinality = false) ∨
    ∃ t attached, (prepare ratings []).run r = (.ok (), t) ∧
      (prepare ratings sides).run r = (.ok (), { t with store.sides := attached }) ∧
      ∀ k, attached.find? k = (r.store.sides.find? k).or (Table.findEntry k sides) := by
  have hmoves : Stateful.Moves SameSides (prepare ratings ([] : List (SideKey × Vec α))) := by
    rw [prepare_eq]
    exact .bind (introduce_sameSides ratings _ _) fun _ _ _ _ =>
      .bind (introduce_sameSides ratings _ _) fun _ _ _ _ => fun t => refl_of SameSides t
  have hfails : Stateful.Fails (·.concernsCardinality = false)
      (prepare ratings ([] : List (SideKey × Vec α))) := by
    rw [prepare_eq]
    exact .bind (introduce_fails ratings "user" .userFactors rfl) fun _ =>
      .bind (introduce_fails ratings "item" .itemFactors rfl) fun _ => .pure _
  rw [run_prepare ratings sides]
  rcases hrun : (prepare ratings []).run r with ⟨e | b, t⟩
  · exact .inl ⟨e, t, rfl, rfl, hfails r e (congrArg Prod.fst hrun)⟩
  · obtain ⟨hshape, hsides⟩ := hmoves.of_run hrun
    rw [← hshape] at h
    obtain ⟨attached, hoffers, hfind⟩ := Store.exists_run_offerAll h
    refine .inr ⟨t, attached, rfl, ?_, fun k => ?_⟩
    · exact run_onStore hoffers
    · rw [hfind, hsides]

/-- A recommender whose factors an array holds can be prepared for every frame of users
and items. -/
theorem exists_run_prepare {ratings : Frame α} {users items : List Id}
    (husers : ratings.ids "user" = .ok users) (hitems : ratings.ids "item" = .ok items) {n : Nat}
    (hlimit : (n + 3 : Int) < arrayLimit) {r : Recommender α} (hr : FactorCount n r) :
    ∃ t, (prepare ratings []).run r = (.ok (), t) := by
  obtain ⟨s, hs, hcount⟩ := exists_run_introduce husers .userFactors rfl hlimit hr
  obtain ⟨t, ht, -⟩ := exists_run_introduce hitems .itemFactors rfl hlimit hcount
  refine ⟨t, ?_⟩
  rw [prepare_eq, Stateful.run_bind_of_ok hs, Stateful.run_bind_of_ok ht]
  rfl

end Recommender

end LatentFactors
