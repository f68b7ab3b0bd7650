import LatentFactors.Proofs.Learner.Sizes
import LatentFactors.Proofs.Recommender.Equivalent

/-!
# What calls keep

However a recommender is used, it keeps its learner, its target and the sizes of
its store (`Recommender.after_evolves`).  Users and items are listed in the order in
which they became known, each once: a known one keeps its place, and new ones come
behind (`Store.Evolves.owners`).
-/

namespace LatentFactors

variable {α : Type}

namespace Store

/-- The owners of a kind are those that have a family of it. -/
theorem contains_owners (s : Store α) (kind : FamilyKind) (owner : Id) :
    (s.owners kind).contains owner = s.hasFamily kind owner := by
  rw [Bool.eq_iff_iff, List.contains_iff_exists_mem_beq, hasFamily, Table.contains_iff]
  constructor
  · rintro ⟨id, hid, hsame⟩
    obtain ⟨key, hkey, rfl⟩ := List.mem_map.1 hid
    obtain ⟨hmem, hkind⟩ := List.mem_filter.1 hkey
    exact ⟨key, hmem, FamilyKey.beq_iff.2 ⟨of_decide_eq_true hkind, (Id.beq_iff.1 hsame).symm⟩⟩
  · rintro ⟨key, hkey, hsame⟩
    obtain ⟨hkind, hname⟩ := FamilyKey.beq_iff.1 hsame
    refine ⟨key.owner, List.mem_map_of_mem (List.mem_filter.2 ⟨hkey, decide_eq_true hkind⟩), ?_⟩
    exact Id.beq_iff.2 hname.symm

variable [Scalar α]

/-- What learning, predicting and giving side information keep. -/
structure Evolves (s t : Store α) : Prop where
  shape : t.shape = s.shape
  wellSized (h : s.WellSized) : t.WellSized
  families : s.families.GoesOn t.families

instance : IsPreorder (Store α) Evolves where
  refl s := ⟨rfl, fun h => h, .refl s.families⟩
  trans _ _ _ h h' :=
    ⟨h'.shape.trans h.shape, fun hs => h'.wellSized (h.wellSized hs), h.families.trans h'.families⟩

/-- The owners of a kind stay in their places, and none is listed twice. -/
theorem Evolves.owners {s t : Store α} (h : Evolves s t) (kind : FamilyKind) :
    s.owners kind <+: t.owners kind ∧
      (s.families.keys.Pairwise (fun a b => (a == b) = false) →
        (t.owners kind).Pairwise fun a b => (a == b) = false) := by
  refine ⟨(h.families.keys.filter _).map _, fun hs => ?_⟩
  refine List.pairwise_map.2 (List.pairwise_filter.2 ((h.families.distinct hs).imp ?_))
  intro a b hdistinct ha hb
  refine Bool.eq_false_iff.2 fun hname => Bool.eq_false_iff.1 hdistinct ?_
  have hkind : a.kind = b.kind := (of_decide_eq_true ha).trans (of_decide_eq_true hb).symm
  exact FamilyKey.beq_iff.2 ⟨hkind, Id.beq_iff.1 hname⟩

omit [Scalar α] in
theorem goesOn_withFamilies (written : List (FamilyKey × Family α)) :
    ∀ s : Store α, s.families.GoesOn (s.withFamilies written).families := by
  induction written with
  | nil => exact fun s => .refl s.families
  | cons e rest ih =>
    intro s
    exact (s.families.goesOn_insert e.1 e.2).trans (ih { s with families := _ })

/-! ## Operations on a store -/

theorem Grows.evolves {user item : Id} {s t : Store α} (h : Grows user item s t) :
    Evolves s t := by
  obtain ⟨added, hadded, hnew, hdistinct⟩ := h.families
  refine ⟨h.shape, h.wellSized, ?_⟩
  exact Table.goesOn_of_append hadded (fun e he => (hnew e he).2.1) hdistinct

theorem touch_evolves (kind : FamilyKind) (owner : Id) :
    Moves Evolves (touch (α := α) kind owner) :=
  fun s => (touch_moves kind owner s).evolves

theorem setSide_evolves (key : SideKey) (v : Vec α) : Moves Evolves (setSide key v) := by
  intro s
  rw [run_setSide]
  split
  · next hsize => exact ⟨rfl, fun hs => hs.give hsize, .refl s.families⟩
  · exact refl_of Evolves s

theorem offerAll_evolves (offers : List (SideKey × Vec α)) : Moves Evolves (offerAll offers) := by
  refine .forM fun offered _ => .bind .get fun _ s _ _ => ?_
  split
  · exact .pure _
  · exact setSide_evolves offered.1 offered.2

end Store

variable [Scalar α]

theorem Learner.Change.evolves {l : Learner α} {s t : Store α} (h : l.Change s t) :
    s.Evolves t := by
  refine ⟨h.shape_eq, h.wellSized, ?_⟩
  cases h with
  | grow user item t h => exact h.evolves.families
  | give key v h => exact .refl s.families
  | forget key => exact .refl s.families
  | learn user item y g u new hgather himprove =>
    have hgrows := (gather_moves l user item).of_run hgather
    exact hgrows.evolves.families.trans (Store.goesOn_withFamilies _ { u with cuts := new.cuts })

/-! ## Calls -/

namespace Recommender

/-- What a call keeps of a recommender. -/
structure Evolves (r t : Recommender α) : Prop where
  learner : t.learner = r.learner
  target : t.target = r.target
  store : r.store.Evolves t.store

instance : IsPreorder (Recommender α) Evolves where
  refl r := ⟨rfl, rfl, refl_of Store.Evolves r.store⟩
  trans _ _ _ h h' :=
    ⟨h'.learner.trans h.learner, h'.target.trans h.target,
      trans_of Store.Evolves h.store h'.store⟩

theorem onStore_evolves {op : StoreM α β} (h : Store.Moves Store.Evolves op) :
    Stateful.Moves Evolves (onStore op) := fun r => ⟨rfl, rfl, h r.store⟩

theorem tellApart_evolves (id : Id) :
    Stateful.Moves Evolves (tellApart id : RecommenderM α Id) := by
  unfold tellApart
  split
  · refine .bind (fun r => ?_) fun _ _ _ _ => .bind .get fun _ _ _ _ => .pure _
    exact ⟨rfl, rfl, refl_of Store.Evolves r.store⟩
  · exact .pure id

theorem addRating_evolves (user item : Id) (y : Numeral α) :
    Stateful.Moves Evolves (addRating user item y) := by
  refine .bind (fun r => ⟨rfl, rfl, refl_of Store.Evolves r.store⟩) fun _ _ _ _ => ?_
  refine .bind .get fun _ r _ _ => onStore_evolves fun s => ?_
  exact (r.learner.change_train user item y s).evolves

theorem predictAll_evolves (user item : Id) :
    Stateful.Moves (Evolves (α := α)) (predictAll user item) :=
  .bind .get fun _ r _ _ =>
    onStore_evolves fun s => (r.learner.predictFull_moves user item s).evolves

/-- Every call keeps the learner, the target and the sizes, also when it fails. -/
theorem answer_evolves (call : Call α) : Stateful.Moves Evolves (answer call) := by
  refine moves_answer tellApart_evolves ?_ ?_ ?_ addRating_evolves predictAll_evolves call
  · exact fun user => onStore_evolves (Store.touch_evolves .userFactors user)
  · exact fun item => onStore_evolves (Store.touch_evolves .itemFactors item)
  · exact fun sides => onStore_evolves (Store.offerAll_evolves sides)

/-- A session keeps them too. -/
theorem after_evolves (calls : List (Call α)) (r : Recommender α) : Evolves r (after calls r) :=
  moves_after answer_evolves calls r

end Recommender

end LatentFactors
