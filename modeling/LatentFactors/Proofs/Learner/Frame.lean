import LatentFactors.Proofs.Learner.Step
import LatentFactors.Proofs.Table

/-!
# What a step reaches

A step for a user and an item reaches the families under
`Learner.familyKeys`: the factors of both and the parameters of their side
terms.  No two of these keys are the same.

* `Store.ChangesOnly keys s t` says that between `s` and `t` nothing happens to
  the sizes, to the side information, and to the families that are not under
  one of `keys`.  A step changes only the families that it reaches
  (`Learner.train_changesOnly`).
* `Store.find?_withFamilies`: families that are replaced one after the other
  read like a table of their own before the store.  So every new family is
  found under its key, and every other key reads what it read before
  (`Learner.find?_accept_of_mem` and `Learner.find?_accept_of_not_mem`).
* `Learner.train_eq_ok_iff` says when a step succeeds and what it leaves, and
  `Learner.run_predict_of_improves` that a prediction before the step is the
  one that the step is computed from.
-/

namespace LatentFactors

namespace Store

variable {α : Type}

/-! ## Replaced families -/

/-- A family is found among those that replace others, the last one first, or
else in the store. -/
theorem find?_withFamilies (families : List (FamilyKey × Family α)) (s : Store α)
    (key : FamilyKey) :
    (s.withFamilies families).families.find? key =
      (Table.findEntry key families.reverse).or (s.families.find? key) := by
  induction families generalizing s with
  | nil => rfl
  | cons e rest ih =>
    have hrest : (s.withFamilies (e :: rest)).families.find? key =
        (Table.findEntry key rest.reverse).or ((s.families.insert e.1 e.2).find? key) :=
      ih { s with families := s.families.insert e.1 e.2 }
    rw [hrest, Table.find?_insert, List.reverse_cons, Table.findEntry_append, Option.or_assoc]
    congr 1
    by_cases h : e.1 == key <;> simp [Table.findEntry, h]

theorem find?_withFamilies_of_mem {families : List (FamilyKey × Family α)}
    (h : families.Pairwise fun a b => (a.1 == b.1) = false) (s : Store α)
    {e : FamilyKey × Family α} (he : e ∈ families) :
    (s.withFamilies families).families.find? e.1 = some e.2 := by
  have hreverse : families.reverse.Pairwise fun a b => (a.1 == b.1) = false :=
    List.pairwise_reverse.2 (h.imp fun hab => BEq.symm_false hab)
  rw [find?_withFamilies, Table.findEntry_of_mem hreverse (List.mem_reverse.2 he)]
  rfl

theorem find?_withFamilies_of_not_mem {families : List (FamilyKey × Family α)} (s : Store α)
    {key : FamilyKey} (h : ∀ e ∈ families, (e.1 == key) = false) :
    (s.withFamilies families).families.find? key = s.families.find? key := by
  have hnone : Table.findEntry key families.reverse = none :=
    Table.findEntry_eq_none_iff.2 fun e he => h e (List.mem_reverse.1 he)
  rw [find?_withFamilies, hnone]
  rfl

/-! ## Changes of some families -/

/-- Sizes, side information and the families that are not under a key of a list
stay as they are. -/
structure ChangesOnly (keys : List FamilyKey) (s t : Store α) : Prop where
  shape : t.shape = s.shape
  sides : t.sides = s.sides
  families (key : FamilyKey) (h : ∀ k ∈ keys, (k == key) = false) :
    t.families.find? key = s.families.find? key

namespace ChangesOnly

variable {keys : List FamilyKey} {s t u : Store α}

theorem refl (s : Store α) : ChangesOnly keys s s := ⟨rfl, rfl, fun _ _ => rfl⟩

theorem trans (h : ChangesOnly keys s t) (h' : ChangesOnly keys t u) : ChangesOnly keys s u :=
  ⟨h'.shape.trans h.shape, h'.sides.trans h.sides,
    fun key hkey => (h'.families key hkey).trans (h.families key hkey)⟩

instance : IsPreorder (Store α) (ChangesOnly keys) where
  refl := refl
  trans _ _ _ := trans

end ChangesOnly

variable [Scalar α]

/-- Reading a family changes nothing but this family, also when it cannot be
started. -/
theorem family_changesOnly {keys : List FamilyKey} {kind : FamilyKind} {owner : Id}
    (h : ⟨kind, owner⟩ ∈ keys) : Moves (ChangesOnly keys) (family (α := α) kind owner) := by
  refine family_moves_of (fun s n => ⟨rfl, rfl, fun _ _ => rfl⟩) fun s n family _ _ => ?_
  refine ⟨rfl, rfl, fun key hkey => ?_⟩
  show (s.families.insert ⟨kind, owner⟩ family).find? key = _
  rw [Table.find?_insert, if_neg (Bool.eq_false_iff.1 (hkey _ h))]

end Store

namespace Learner

variable {α : Type} {l : Learner α} {user item : Id}

/-! ## The families of a user and an item -/

/-- No two families of a user and an item have one key. -/
theorem pairwise_familyKeys (l : Learner α) (user item : Id) :
    (l.familyKeys user item).Pairwise fun a b => (a == b) = false := by
  have hkinds : ((l.familyKeys user item).map (·.kind)).Nodup := by
    rw [familyKeys, sideTerms]
    split <;> simp
  refine (List.pairwise_map.1 hkinds).imp fun hkind => ?_
  exact Bool.eq_false_iff.2 fun h => hkind (FamilyKey.beq_iff.1 h).1

/-- A key is that of a family of the user and the item, or of none. -/
theorem reached_or_not (l : Learner α) (user item : Id) (key : FamilyKey) :
    (∃ k ∈ l.familyKeys user item, (k == key) = true) ∨
      ∀ k ∈ l.familyKeys user item, (k == key) = false := by
  by_cases hkey : ∃ k ∈ l.familyKeys user item, (k == key) = true
  · exact Or.inl hkey
  · exact Or.inr fun k hk => Bool.eq_false_iff.2 fun hsame => hkey ⟨k, hk, hsame⟩

variable [Scalar α] {y : Numeral α} {s t u : Store α} {g : Gathered α} {new : Improved α}
  {scored predicted : List α}

/-- What is written is under the keys of the user and the item. -/
theorem Improves.keys (h : l.Improves y g new scored predicted)
    (hread : g.ReadFrom l user item u) :
    (new.families user item).map (·.1) = l.familyKeys user item := by
  have hkeys : List.Forall₂ Eq (new.terms.map (·.1)) (g.terms.map (·.term.key)) :=
    List.forall₂_map_right_iff.2 (List.forall₂_map_left_iff.2
      (h.terms.flip.imp fun _ _ hterm => hterm.1))
  rw [List.forall₂_eq_eq_eq] at hkeys
  rw [Improved.families, familyKeys, ← hread.terms, List.map_cons, List.map_cons, hkeys,
    List.map_map]
  rfl

/-- A new family is found under its key. -/
theorem find?_accept_of_mem (h : l.Improves y g new scored predicted)
    (hread : g.ReadFrom l user item u) {e : FamilyKey × Family α}
    (he : e ∈ new.families user item) :
    (u.accept user item new).families.find? e.1 = some e.2 := by
  refine Store.find?_withFamilies_of_mem ?_ { u with cuts := new.cuts } he
  have hkeys := l.pairwise_familyKeys user item
  rw [← h.keys hread] at hkeys
  exact List.pairwise_map.1 hkeys

/-- What a step makes of the parameters of a side term. -/
theorem Improves.exists_updated (h : l.Improves y g new scored predicted)
    (hread : g.ReadFrom l user item u) {term : SideTerm α}
    (hterm : term ∈ l.sideTerms user item) :
    ∃ old f updated, u.families.find? term.key = some old ∧ u.side term.feature = .ok f ∧
      (u.accept user item new).families.find? term.key = some updated ∧
      l.gradient.updateFamily old (.shared f) y predicted ⟨term.penalty, .ofReal 0, []⟩ none =
        .ok updated := by
  rw [← hread.terms] at hterm
  obtain ⟨x, hx, rfl⟩ := List.mem_map.1 hterm
  obtain ⟨e, he, hkey, hupdate⟩ := Outcome.exists_right_of_forall₂ h.terms hx
  have hwritten : e ∈ new.families user item := Improved.mem_families.2 (.inr (.inr he))
  refine ⟨x.parameters, x.feature, e.2, hread.parameters x hx, hread.features x hx, ?_, hupdate⟩
  rw [← hkey]
  exact find?_accept_of_mem h hread hwritten

/-- Every other key reads what it read before. -/
theorem find?_accept_of_not_mem (h : l.Improves y g new scored predicted)
    (hread : g.ReadFrom l user item u) {key : FamilyKey}
    (hkey : ∀ k ∈ l.familyKeys user item, (k == key) = false) :
    (u.accept user item new).families.find? key = u.families.find? key := by
  refine Store.find?_withFamilies_of_not_mem { u with cuts := new.cuts } fun e he => ?_
  refine hkey e.1 ?_
  rw [← h.keys hread]
  exact List.mem_map_of_mem he

/-! ## Steps -/

/-- A step goes along every relation that reading the families of the user and
the item goes along, and writing what was improved. -/
theorem moves_train {R : Store α → Store α → Prop} [IsPreorder (Store α) R]
    (hR : ∀ key ∈ l.familyKeys user item, Store.Moves R (Store.family (α := α) key.kind key.owner))
    (haccept : ∀ u g new scored predicted, g.ReadFrom l user item u →
      l.Improves y g new scored predicted → R u (u.accept user item new)) :
    Store.Moves R (l.train user item y) := by
  intro s
  have hgathered := moves_gather hR s
  rw [run_train]
  split
  · exact refl_of R s
  · split
    · next e u hgather =>
      rw [hgather] at hgathered
      exact hgathered
    · next g u hgather =>
      rw [hgather] at hgathered
      split
      · exact hgathered
      · next new himprove =>
        obtain ⟨scored, predicted, himproves⟩ := improve_eq_ok himprove
        exact trans_of R hgathered
          (haccept u g new scored predicted (readFrom_of_run hgather) himproves)

/-- A step changes only the families of the user and the item. -/
theorem train_changesOnly (l : Learner α) (user item : Id) (y : Numeral α) :
    Store.Moves (Store.ChangesOnly (l.familyKeys user item)) (l.train user item y) := by
  refine moves_train (fun _ hkey => Store.family_changesOnly hkey) ?_
  exact fun u g new scored predicted hread himproves =>
    ⟨rfl, rfl, fun key hkey => find?_accept_of_not_mem himproves hread hkey⟩

/-- A step succeeds exactly when the observed value is accepted and what was
gathered can be improved, and it leaves the improvement. -/
theorem train_eq_ok_iff :
    (l.train user item y).run s = (.ok (), t) ↔
      l.requireScope = .ok () ∧ l.gradient.checkLabel y s.shape.classCount = .ok () ∧
        ∃ g u new, (l.gather user item).run s = (.ok g, u) ∧ l.improve y g = .ok new ∧
          t = u.accept user item new := by
  rw [run_train]
  constructor
  · intro h
    split at h
    · cases h
    · next hchecks =>
      obtain ⟨_, hscope, hlabel⟩ := Outcome.bind_eq_ok.1 hchecks
      split at h
      · cases h
      · next g u hgather =>
        split at h
        · cases h
        · next new himprove =>
          cases h
          exact ⟨hscope, hlabel, g, u, new, hgather, himprove, rfl⟩
  · rintro ⟨hscope, hlabel, g, u, new, hgather, himprove, rfl⟩
    rw [hscope, Outcome.bind_ok, hlabel, hgather]
    dsimp only
    rw [himprove]

/-- The prediction before a step is the one that the step is computed from. -/
theorem run_predict_of_improves (hscope : l.requireScope = .ok ())
    (hgather : (l.gather user item).run s = (.ok g, u))
    (h : l.Improves y g new scored predicted) :
    (l.predict user item).run s = (.ok predicted, u) := by
  have hscores : (l.linearCombination user item).run s = (.ok scored, u) := by
    rw [linearCombination, hscope, Store.run_bind_of_ok (Store.run_lift _ s),
      Store.run_bind_of_ok hgather, Store.run_lift, h.scores]
  rw [predict, Store.run_bind_of_ok hscores, Store.run_lift, h.prediction]

end Learner

end LatentFactors
