import LatentFactors.Proofs.Learner.Step
import LatentFactors.Proofs.Store.Equivalent

/-!
# Learning and predicting in equivalent stores

A learner gives the same in stores that cannot be told apart, and leaves stores
that cannot be told apart (`Learner.train_equivalent`,
`Learner.predictFull_equivalent`).

A prediction for a user and an item that have factors starts nothing but zero
parameters.  The store after it cannot be told apart from the store before
(`Learner.predictFull_moves_equivalent`).
-/

namespace LatentFactors.Learner

variable {α : Type} [Scalar α]

/-! ## Two runs -/

theorem gather_equivalent (l : Learner α) (user item : Id) :
    Store.Couples Store.Equivalent Eq (l.gather user item) (l.gather user item) := by
  refine (couples_gather (P := fun cuts cuts' => cuts' = cuts) (V := Eq)
    (fun key _ => Store.family_equivalent key.kind key.owner) ?_ fun _ _ hs => hs.cuts).imp ?_
  · exact fun s s' hs term _ => .of_eq (hs.side_eq term.feature)
  · intro g g' hg
    rw [hg.eq_withCuts, hg.cuts]

theorem linearCombination_equivalent (l : Learner α) (user item : Id) :
    Store.Couples Store.Equivalent Eq (l.linearCombination user item)
      (l.linearCombination user item) := by
  refine couples_linearCombination rfl (l.gather_equivalent user item) ?_
  rintro g _ rfl
  rfl

theorem predictFull_equivalent (l : Learner α) (user item : Id) :
    Store.Couples Store.Equivalent Eq (l.predictFull user item) (l.predictFull user item) :=
  couples_predictFull rfl (l.linearCombination_equivalent user item)

theorem commit_equivalent (user item : Id) (new : Improved α) :
    Store.Couples Store.Equivalent Eq (commit user item new) (commit user item new) := by
  refine .bind (Store.setCuts_equivalent new.cuts) fun _ _ _ => ?_
  refine .bind (Store.setFamily_equivalent .userFactors user new.users) fun _ _ _ => ?_
  refine .bind (Store.setFamily_equivalent .itemFactors item new.items) fun _ _ _ => ?_
  exact .forM fun e _ => Store.setFamily_equivalent e.1.kind e.1.owner e.2

theorem train_equivalent (l : Learner α) (user item : Id) (y : Numeral α) :
    Store.Couples Store.Equivalent Eq (l.train user item y) (l.train user item y) := by
  refine .bind (.lift _) fun _ _ _ => ?_
  refine .bind .get fun s s' hs => ?_
  rw [hs.shape]
  refine .bind (.lift _) fun _ _ _ => ?_
  refine .bind (l.gather_equivalent user item) ?_
  rintro g _ rfl
  refine .bind (.lift _) ?_
  rintro new _ ⟨rfl, -⟩
  exact commit_equivalent user item _

/-! ## Predictions for known users and items -/

/-- If all factors of a list are there, the store after an operation cannot be
told apart from the one before. -/
def KeepsKnown (keys : List FamilyKey) (s t : Store α) : Prop :=
  s.HasFactors keys → s.Equivalent t

instance (keys : List FamilyKey) : IsPreorder (Store α) (KeepsKnown keys) where
  refl s _ := .refl s
  trans s t u h h' hs := by
    refine (h hs).trans (h' fun key hkey intercept hrole => ?_)
    rw [(h hs).find?_eq key (by rw [FamilyKind.isFactors, hrole])]
    exact hs key hkey intercept hrole

theorem family_keepsKnown {keys : List FamilyKey} {key : FamilyKey} (hkey : key ∈ keys) :
    Store.Moves (KeepsKnown keys) (Store.family (α := α) key.kind key.owner) := by
  intro s hs
  cases hrole : key.kind.role with
  | parameters owner => exact Store.parameters_move_equivalent hrole key.owner s
  | factors intercept =>
    obtain ⟨vectors, hfind⟩ := Option.isSome_iff_exists.1 (hs key hkey intercept hrole)
    rw [Store.run_family, hfind]
    exact .refl s

/-- A prediction for a user and an item with factors leads to an equivalent
store, also when it fails. -/
theorem predictFull_moves_equivalent (l : Learner α) {user item : Id} {s : Store α}
    (huser : s.hasFamily .userFactors user = true) (hitem : s.hasFamily .itemFactors item = true) :
    s.Equivalent ((l.predictFull user item).run s).2 := by
  have hmoves : Store.Moves (KeepsKnown (l.familyKeys user item)) (l.predictFull user item) := by
    refine .bind (.bind (.lift _) fun _ _ _ _ => ?_) fun _ _ _ _ => .lift _
    exact .bind (moves_gather fun _ hkey => family_keepsKnown hkey) fun _ _ _ _ => .lift _
  exact hmoves s (hasFactors_familyKeys huser hitem)

end LatentFactors.Learner
