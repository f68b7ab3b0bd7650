import LatentFactors.Proofs.Store.Start

/-!
# Two runs side by side

What an operation depends on is said by two of its runs: wherever it starts
from two stores that are alike in some way, it gives related results and leaves
stores that are alike again, or it fails with the same fault both times
(`Store.Couples`).

`Store.Alike keys places s s'` is what matters to reading the families under
`keys` and the side information at `places`: two stores have the same sizes and
hold the same there.  A family that starts also takes draws if it is one of
factors, so either the draws are the same too, or no factors have to start.
Reading one of the families is coupled with itself (`Store.family_couples`).
-/

namespace LatentFactors

namespace Store

variable {α β γ : Type}

/-- Two operations on related stores have related results and leave related
stores. -/
abbrev Couples (R : Store α → Store α → Prop) (Q : β → γ → Prop) (m : StoreM α β)
    (m' : StoreM α γ) : Prop := Stateful.Couples R Q m m'

/-! ## Starting a family twice -/

/-- The same sizes and the same draws. -/
structure SameDraws (s s' : Store α) : Prop where
  shape : s'.shape = s.shape
  draws : s'.draws = s.draws

variable [Scalar α]

theorem drawVector_couples (intercept : Nat) :
    Couples SameDraws Eq (drawVector (α := α) intercept) (drawVector intercept) := by
  intro s s' h
  rw [run_drawVector_eq, run_drawVector_eq, h.shape, h.draws]
  cases s.shape.factorSize.count with
  | error e => exact ⟨.error e, h⟩
  | ok n =>
    dsimp only
    split
    · exact ⟨.error _, h⟩
    · refine ⟨.of_eq rfl, h.shape, ?_⟩
      rw [skip, skip, h.draws]

/-- A family of factors starts from the sizes and the draws. -/
theorem freshFamily_couples (kind : FamilyKind) :
    Couples SameDraws Eq (freshFamily (α := α) kind) (freshFamily kind) := by
  intro s s' h
  rw [freshFamily_eq, freshFamily_eq, h.shape]
  cases kind.role with
  | factors intercept => exact Stateful.Couples.mapM (fun k _ => drawVector_couples k) s s' h
  | parameters owner => exact ⟨.of_eq rfl, h⟩

section Relation

variable {R : Store α → Store α → Prop}

/-- A family starts in the same way in stores with the same sizes and draws,
whatever else relates them, if they stay related when their draws are the same
again. -/
theorem freshFamily_couples_of (hsame : ∀ s s', R s s' → SameDraws s s')
    (hredraw : ∀ s s' draws, R s s' → R { s with draws } { s' with draws }) (kind : FamilyKind) :
    Couples R Eq (freshFamily (α := α) kind) (freshFamily kind) := by
  intro s s' h
  obtain ⟨hagree, hafter⟩ := freshFamily_couples kind s s' (hsame s s' h)
  refine ⟨hagree, ?_⟩
  obtain ⟨n, ht⟩ := freshFamily_moves kind s
  obtain ⟨n', ht'⟩ := freshFamily_moves kind s'
  rw [ht, ht'] at hafter ⊢
  have hdraws : s'.skip n' = { s' with draws := (s.skip n).draws } := by
    rw [← hafter.draws]
    rfl
  rw [hdraws]
  exact hredraw s s' _ h

/-- Reading a family gives the same in related stores if it is there in both or in
neither, starts in the same way, and leaves them related when it is stored. -/
theorem family_couples_of {kind : FamilyKind} {owner : Id}
    (hfind : ∀ s s', R s s' →
      s'.families.find? ⟨kind, owner⟩ = s.families.find? ⟨kind, owner⟩)
    (hfresh : ∀ s s', R s s' → s.families.find? ⟨kind, owner⟩ = none →
      Outcome.Agree Eq ((freshFamily kind).run s).1 ((freshFamily kind).run s').1 ∧
        R ((freshFamily kind).run s).2 ((freshFamily kind).run s').2)
    (hinsert : ∀ s s' vectors, R s s' →
      R { s with families := s.families.insert ⟨kind, owner⟩ vectors }
        { s' with families := s'.families.insert ⟨kind, owner⟩ vectors }) :
    Couples R Eq (family (α := α) kind owner) (family kind owner) := by
  intro s s' h
  rw [run_family, run_family, hfind s s' h]
  cases hnone : s.families.find? ⟨kind, owner⟩ with
  | some vectors => exact ⟨.ok rfl, h⟩
  | none =>
    obtain ⟨hagree, hafter⟩ := hfresh s s' h hnone
    rcases hrun : (freshFamily kind).run s with ⟨r, t⟩
    rcases hrun' : (freshFamily kind).run s' with ⟨r', t'⟩
    rw [hrun, hrun'] at hagree hafter
    cases hagree with
    | ok heq =>
      subst heq
      exact ⟨.ok rfl, hinsert t t' _ hafter⟩
    | error e => exact ⟨.error e, hafter⟩

end Relation

/-! ## Stores that are alike for some families -/

/-- The factors of a list are there. -/
def HasFactors (keys : List FamilyKey) (s : Store α) : Prop :=
  ∀ key ∈ keys, ∀ intercept, key.kind.role = .factors intercept →
    (s.families.find? key).isSome = true

omit [Scalar α] in
theorem HasFactors.insert {keys : List FamilyKey} {s : Store α} (h : s.HasFactors keys)
    (key : FamilyKey) (family : Family α) :
    HasFactors keys { s with families := s.families.insert key family } := by
  intro k hk intercept hrole
  show ((s.families.insert key family).find? k).isSome = true
  rw [Table.find?_insert]
  split
  · rfl
  · exact h k hk intercept hrole

/-- The same sizes, the same families and side information of a list, and the
same draws unless all factors of the list are there. -/
structure Alike (keys : List FamilyKey) (places : List SideKey) (s s' : Store α) : Prop where
  shape : s'.shape = s.shape
  families : ∀ key ∈ keys, s'.families.find? key = s.families.find? key
  sides : ∀ key ∈ places, s'.sides.find? key = s.sides.find? key
  draws : s'.draws = s.draws ∨ s.HasFactors keys

namespace Alike

variable {keys : List FamilyKey} {places : List SideKey} {s s' : Store α}

theorem side_eq (h : Alike keys places s s') {key : SideKey} (hkey : key ∈ places) :
    s'.side key = s.side key := by
  rw [side, side, h.sides key hkey, h.shape]

omit [Scalar α] in
/-- Stores stay alike if both go on with other draws, the same ones if they had
the same. -/
theorem redraw (h : Alike keys places s s') {draws draws' : Draws α}
    (hdraws : s'.draws = s.draws → draws' = draws) :
    Alike keys places { s with draws } { s' with draws := draws' } :=
  ⟨h.shape, h.families, h.sides, h.draws.imp_left hdraws⟩

omit [Scalar α] in
/-- Stores stay alike if both receive one family. -/
theorem insert (h : Alike keys places s s') (key : FamilyKey) (family : Family α) :
    Alike keys places { s with families := s.families.insert key family }
      { s' with families := s'.families.insert key family } := by
  refine ⟨h.shape, fun k hk => ?_, h.sides, h.draws.imp_right fun hall => hall.insert key family⟩
  show (s'.families.insert key family).find? k = (s.families.insert key family).find? k
  rw [Table.find?_insert, Table.find?_insert, h.families k hk]

end Alike

/-- A family that is not there starts in the same way in stores that are alike,
and leaves them alike: it takes the same draws if the draws are the same. -/
theorem agree_freshFamily {keys : List FamilyKey} {places : List SideKey} {key : FamilyKey}
    (hkey : key ∈ keys) {s s' : Store α} (h : Alike keys places s s')
    (hfind : s.families.find? key = none) :
    Outcome.Agree Eq ((freshFamily key.kind).run s).1 ((freshFamily key.kind).run s').1 ∧
      Alike keys places ((freshFamily key.kind).run s).2 ((freshFamily key.kind).run s').2 := by
  cases hrole : key.kind.role with
  | factors intercept =>
    have hdraws : s'.draws = s.draws := by
      refine h.draws.resolve_right fun hall => ?_
      have hsome := hall key hkey intercept hrole
      rw [hfind] at hsome
      cases hsome
    obtain ⟨hagree, hsame⟩ := freshFamily_couples key.kind s s' ⟨h.shape, hdraws⟩
    obtain ⟨n, ht⟩ := freshFamily_moves key.kind s
    obtain ⟨n', ht'⟩ := freshFamily_moves key.kind s'
    rw [ht, ht'] at hsame ⊢
    exact ⟨hagree, h.redraw fun _ => hsame.draws⟩
  | parameters owner =>
    rw [freshFamily_eq, freshFamily_eq, hrole, h.shape]
    exact ⟨.of_eq rfl, h⟩

/-- Reading a family gives the same in stores that are alike, and leaves them
alike. -/
theorem family_couples {keys : List FamilyKey} {places : List SideKey} {key : FamilyKey}
    (hkey : key ∈ keys) :
    Couples (Alike keys places) Eq (family (α := α) key.kind key.owner)
      (family key.kind key.owner) :=
  family_couples_of (fun _ _ h => h.families key hkey)
    (fun _ _ h hfind => agree_freshFamily hkey h hfind) fun _ _ vectors h => h.insert key vectors

/-! ## Draws -/

/-- If all factors of a list are there, they stay and nothing is drawn. -/
def KeepsDraws (keys : List FamilyKey) (s t : Store α) : Prop :=
  s.HasFactors keys → t.HasFactors keys ∧ t.draws = s.draws

omit [Scalar α] in
instance (keys : List FamilyKey) : IsPreorder (Store α) (KeepsDraws keys) where
  refl _ h := ⟨h, rfl⟩
  trans _ _ _ h h' hs := ⟨(h' (h hs).1).1, (h' (h hs).1).2.trans (h hs).2⟩

/-- Parameters of side information start without draws. -/
theorem family_keepsDraws {keys : List FamilyKey} {key : FamilyKey} (hkey : key ∈ keys) :
    Moves (KeepsDraws keys) (family (α := α) key.kind key.owner) := by
  intro s hs
  rw [run_family]
  cases hfind : s.families.find? ⟨key.kind, key.owner⟩ with
  | some vectors => exact ⟨hs, rfl⟩
  | none =>
    cases hrole : key.kind.role with
    | factors intercept =>
      have hsome := hs key hkey intercept hrole
      rw [hfind] at hsome
      cases hsome
    | parameters owner =>
      rw [freshFamily_eq, hrole]
      dsimp only
      split
      · next vectors t hrun =>
        obtain ⟨-, rfl⟩ := Prod.mk.inj hrun
        exact ⟨hs.insert key vectors, rfl⟩
      · next e t hrun =>
        obtain ⟨-, rfl⟩ := Prod.mk.inj hrun
        exact ⟨hs, rfl⟩

end Store

end LatentFactors
