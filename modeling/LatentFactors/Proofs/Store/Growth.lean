import LatentFactors.Proofs.Store.Start

/-!
# What reading adds to a store

Reading a family creates it if it is not there, so a store grows while what a
user and an item need is read.  `Store.Grows user item s t` says that nothing
else happens between `s` and `t`: the entries of `s` are still there, in their
places and with their values, and every entry after them is a family of that
user or that item, is listed once, and is one that its kind can start with.

* `Store.family_moves`: reading a family goes along `Store.Grows`, whether it
  succeeds or fails.
* `Store.exists_run_family`: it succeeds where the sizes are counts.
* `Store.Families F s` says that every family in a store has a property that
  depends on its kind.  Growth keeps it if starting families have it.
-/

namespace LatentFactors

variable {α : Type}

/-- Whether the families of a kind belong to users. -/
def FamilyKind.ofUser : FamilyKind → Bool
  | .userFactors | .userOnItemSide | .userOnDynamicSide => true
  | .itemFactors | .itemOnUserSide | .itemOnDynamicSide => false

/-- Whether a family belongs to a user or an item, by its kind. -/
def FamilyKey.Concerns (key : FamilyKey) (user item : Id) : Prop :=
  key.owner = if key.kind.ofUser then user else item

namespace Store

/-- A property, for every kind, of all families in a store. -/
def Families (F : FamilyKind → Family α → Prop) (s : Store α) : Prop :=
  ∀ (key : FamilyKey) (family : Family α), s.families.find? key = some family →
    F key.kind family

variable [Scalar α]

/-- Nothing happens between two stores but that families of a user and an item
start. -/
structure Grows (user item : Id) (s t : Store α) : Prop where
  shape : t.shape = s.shape
  sides : t.sides = s.sides
  cuts : t.cuts = s.cuts
  source : t.draws.source = s.draws.source
  taken : s.draws.taken ≤ t.draws.taken
  families : ∃ added, t.families.entries = s.families.entries ++ added ∧
    (∀ e ∈ added, e.1.Concerns user item ∧ s.families.find? e.1 = none ∧
      Starts s.shape s.draws.source e.1.kind e.2) ∧
    added.Pairwise fun a b => (a.1 == b.1) = false

namespace Grows

variable {user item : Id} {s t u : Store α}

theorem refl (s : Store α) : Grows user item s s :=
  ⟨rfl, rfl, rfl, rfl, Nat.le_refl _, [], (List.append_nil _).symm, by simp, .nil⟩

/-- A family that is there stays as it is. -/
theorem find?_eq_some (h : Grows user item s t) {key : FamilyKey} {family : Family α}
    (hfind : s.families.find? key = some family) : t.families.find? key = some family := by
  obtain ⟨added, hadded, -⟩ := h.families
  rw [Table.find?] at hfind ⊢
  rw [hadded, Table.findEntry_append, hfind]
  rfl

theorem find?_eq_none (h : Grows user item s t) {key : FamilyKey}
    (hfind : t.families.find? key = none) : s.families.find? key = none := by
  cases hbefore : s.families.find? key with
  | none => rfl
  | some family =>
    rw [h.find?_eq_some hbefore] at hfind
    cases hfind

theorem trans (h : Grows user item s t) (h' : Grows user item t u) : Grows user item s u := by
  obtain ⟨first, hfirst, hstart, hdistinct⟩ := h.families
  obtain ⟨second, hsecond, hstart', hdistinct'⟩ := h'.families
  refine ⟨h'.shape.trans h.shape, h'.sides.trans h.sides, h'.cuts.trans h.cuts,
    h'.source.trans h.source, h.taken.trans h'.taken, first ++ second, ?_, ?_, ?_⟩
  · rw [hsecond, hfirst, List.append_assoc]
  · intro e he
    rcases List.mem_append.1 he with he | he
    · exact hstart e he
    · obtain ⟨hconcerns, hnew, hstarts⟩ := hstart' e he
      rw [h.shape, h.source] at hstarts
      exact ⟨hconcerns, h.find?_eq_none hnew, hstarts⟩
  · refine List.pairwise_append.2 ⟨hdistinct, hdistinct', fun a ha b hb => ?_⟩
    -- The second part is new to `t`, and the first part is in `t` already.
    have hnew : Table.findEntry b.1 t.families.entries = none := (hstart' b hb).2.1
    rw [hfirst] at hnew
    exact Table.findEntry_eq_none_iff.1 hnew a (List.mem_append_right _ ha)

instance : IsPreorder (Store α) (Grows user item) where
  refl := refl
  trans _ _ _ := trans

/-- A family that is there afterwards was there before, or it has started. -/
theorem held_or_starts (h : Grows user item s t) {key : FamilyKey} {family : Family α}
    (hfind : t.families.find? key = some family) :
    s.families.find? key = some family ∨ Starts s.shape s.draws.source key.kind family := by
  obtain ⟨added, hadded, hnew, -⟩ := h.families
  rw [Table.find?, hadded, Table.findEntry_append, Option.or_eq_some_iff] at hfind
  rcases hfind with hfind | ⟨-, hfind⟩
  · exact Or.inl hfind
  · obtain ⟨e, he, hkey, rfl⟩ := Table.exists_of_findEntry_eq_some hfind
    rw [← (FamilyKey.beq_iff.1 hkey).1]
    exact Or.inr (hnew e he).2.2

/-- A property of all families is kept if starting families have it. -/
theorem keeps_families {F : FamilyKind → Family α → Prop} (h : Grows user item s t)
    (hs : s.Families F)
    (hstart : ∀ kind family, Starts s.shape s.draws.source kind family → F kind family) :
    t.Families F := by
  intro key family hfind
  rcases h.held_or_starts hfind with hheld | hstarts
  · exact hs key family hheld
  · exact hstart key.kind family hstarts

end Grows

/-! ## Reading a family -/

/-- Reading a family starts it if it is not there, and nothing else happens,
also when it cannot be started. -/
theorem family_moves {user item : Id} {kind : FamilyKind} {owner : Id}
    (h : FamilyKey.Concerns ⟨kind, owner⟩ user item) :
    Moves (Grows user item) (family (α := α) kind owner) := by
  refine family_moves_of (fun s n => ?_) fun s n family hfind hrun => ?_
  · exact ⟨rfl, rfl, rfl, rfl, Nat.le_add_right _ _, [], (List.append_nil _).symm, by simp, .nil⟩
  · refine ⟨rfl, rfl, rfl, rfl, Nat.le_add_right _ _, [(⟨kind, owner⟩, family)], ?_, ?_,
      List.pairwise_singleton _ _⟩
    · exact Table.entries_insert_of_find?_eq_none family hfind
    · intro e he
      rw [List.mem_singleton] at he
      subst he
      exact ⟨h, hfind, starts_of_run hrun⟩

theorem touch_moves (kind : FamilyKind) (owner : Id) :
    Moves (Grows owner owner) (touch (α := α) kind owner) :=
  .bind (family_moves (ite_self owner).symm) fun _ _ _ _ => .pure _

theorem find?_of_run_family {kind : FamilyKind} {owner : Id} {s t : Store α} {vectors : Family α}
    (h : (family kind owner).run s = (.ok vectors, t)) :
    t.families.find? ⟨kind, owner⟩ = some vectors := by
  rw [run_family] at h
  cases hfind : s.families.find? ⟨kind, owner⟩ with
  | some family =>
    rw [hfind] at h
    cases h
    exact hfind
  | none =>
    rw [hfind] at h
    rcases hrun : (freshFamily kind).run s with ⟨e | family, u⟩
    · rw [hrun] at h
      cases h
    · rw [hrun] at h
      cases h
      show (u.families.insert ⟨kind, owner⟩ vectors).find? ⟨kind, owner⟩ = some vectors
      rw [Table.find?_insert, if_pos BEq.rfl]

/-- A family can be read if it can be started, and the sizes stay. -/
theorem exists_run_family {kind : FamilyKind} {s : Store α} (h : s.shape.CanStart kind)
    (owner : Id) :
    ∃ vectors t, (family kind owner).run s = (.ok vectors, t) ∧ t.shape = s.shape := by
  have hconcerns : FamilyKey.Concerns ⟨kind, owner⟩ owner owner := (ite_self owner).symm
  have hsucceeds : ∃ vectors t, (family kind owner).run s = (.ok vectors, t) := by
    rw [run_family]
    cases s.families.find? ⟨kind, owner⟩ with
    | some vectors => exact ⟨vectors, s, rfl⟩
    | none =>
      obtain ⟨vectors, t, hrun⟩ := exists_run_freshFamily h
      rw [hrun]
      exact ⟨_, _, rfl⟩
  obtain ⟨vectors, t, hrun⟩ := hsucceeds
  exact ⟨vectors, t, hrun, ((family_moves hconcerns).of_run hrun).shape⟩

end Store

end LatentFactors
