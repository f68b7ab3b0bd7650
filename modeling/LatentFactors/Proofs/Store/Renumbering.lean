import LatentFactors.Proofs.Renumbering
import LatentFactors.Proofs.Store.Reading
import LatentFactors.Proofs.Store.TwoRuns

/-!
# Renumbered stores

`Store.renumbered` permutes the vectors of every family, and leaves side information,
thresholds and draws.  A family that is stored is renumbered along with the others
(`Store.renumbered_insert`).

Parameters of side information start with the same zeros for all classes, so it does not
matter whether they start before or after.  Factors start from draws, and those would come
in another order, so they have to be there.  Then a family reads as the renumbered one, and
the store stays the renumbered one (`Store.family_renumbers`).
-/

namespace LatentFactors.Store

variable {n : Nat} {α β γ : Type}

/-- The store with the vectors of every family permuted. -/
def renumbered (π : Equiv.Perm (Fin n)) (s : Store α) : Store α :=
  { s with families := s.families.relabel id fun _ => LatentFactors.renumbered π }

theorem find?_renumbered (π : Equiv.Perm (Fin n)) (s : Store α) (key : FamilyKey) :
    (s.renumbered π).families.find? key =
      (s.families.find? key).map (LatentFactors.renumbered π) :=
  Table.find?_relabel (fun _ _ => rfl) (fun _ _ _ => rfl) s.families key

/-- What is stored is renumbered along with the rest. -/
theorem renumbered_insert (π : Equiv.Perm (Fin n)) (s : Store α) (key : FamilyKey)
    (family : Family α) :
    renumbered π { s with families := s.families.insert key family } =
      { s.renumbered π with
        families := (s.renumbered π).families.insert key (LatentFactors.renumbered π family) } := by
  have hfamilies : (s.families.insert key family).relabel id
      (fun _ => LatentFactors.renumbered π) =
        (s.families.relabel id fun _ => LatentFactors.renumbered π).insert key
          (LatentFactors.renumbered π family) :=
    Table.relabel_insert (fun _ _ => rfl) (fun _ _ _ => rfl) s.families key family
  exact congrArg (fun families => { s with families }) hfamilies

/-! ## Two runs -/

variable [Scalar α]

/-- A store where the factors of a list are there, and the renumbered one. -/
structure Renumbers (π : Equiv.Perm (Fin n)) (keys : List FamilyKey) (s s' : Store α) : Prop where
  eq : s' = s.renumbered π
  factors : s.HasFactors keys

omit [Scalar α] in
/-- An operation on a renumbered store gives the renumbered result and leaves the
renumbered store. -/
theorem run_renumbered {π : Equiv.Perm (Fin n)} {keys : List FamilyKey} {r : β → γ}
    {m : StoreM α β} {m' : StoreM α γ} {s : Store α}
    (h : Couples (Renumbers π keys) (fun b c => c = r b) m m') (hs : s.HasFactors keys) :
    m'.run (s.renumbered π) = ((m.run s).1.map r, (m.run s).2.renumbered π) := by
  obtain ⟨hagree, hafter⟩ := h s (s.renumbered π) ⟨rfl, hs⟩
  refine Prod.ext ?_ hafter.eq
  generalize (m.run s).1 = result at hagree ⊢
  generalize (m'.run (s.renumbered π)).1 = result' at hagree ⊢
  cases hagree with
  | ok hr => exact congrArg Except.ok hr
  | error e => rfl

/-- A family of a renumbered store reads as the renumbered family. -/
theorem family_renumbers (π : Equiv.Perm (Fin n)) {keys : List FamilyKey} {key : FamilyKey}
    (hkey : key ∈ keys) :
    Couples (Renumbers π keys) (fun family family' => family' = LatentFactors.renumbered π family)
      (Store.family (α := α) key.kind key.owner) (Store.family key.kind key.owner) := by
  rintro s _ ⟨rfl, hfactors⟩
  rw [run_family, run_family, find?_renumbered]
  cases hfind : s.families.find? ⟨key.kind, key.owner⟩ with
  | some vectors => exact ⟨.ok rfl, rfl, hfactors⟩
  | none =>
    rw [Option.map_none]
    dsimp only
    cases hrole : key.kind.role with
    | factors intercept =>
      have hsome := hfactors key hkey intercept hrole
      rw [hfind] at hsome
      cases hsome
    | parameters owner =>
      rw [run_freshFamily_of_parameters hrole, run_freshFamily_of_parameters hrole]
      have hshape : (s.renumbered π).shape = s.shape := rfl
      rw [hshape]
      cases hzeros : s.shape.zeros owner with
      | error e => exact ⟨.error e, rfl, hfactors⟩
      | ok vectors =>
        have hsame : LatentFactors.renumbered π vectors = vectors := by
          obtain ⟨size, -, hzeros⟩ := Outcome.bind_eq_ok.1 hzeros
          obtain ⟨zero, -, hzeros⟩ := Outcome.bind_eq_ok.1 hzeros
          injection hzeros with hzeros
          rw [← hzeros, renumbered_replicate]
        refine ⟨.ok hsame.symm, ?_, hfactors.insert key vectors⟩
        rw [renumbered_insert, hsame]

end LatentFactors.Store
