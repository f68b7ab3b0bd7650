import LatentFactors.Proofs.Stateful
import LatentFactors.Store

/-!
# Running operations on a store

What the single operations on a store give.  An operation on a store is one with
a state, so chains are taken apart by `Store.run_bind` and
`Store.run_bind_eq_ok`, and `Store.Moves` follows a chain from the store before
it to the store after it.
-/

namespace LatentFactors.Store

variable {α β γ : Type}

/-! ## Single operations -/

theorem run_pure (b : β) (s : Store α) : (pure b : StoreM α β).run s = (.ok b, s) := rfl

theorem run_get (s : Store α) : (get : StoreM α (Store α)).run s = (.ok s, s) := rfl

theorem run_lift (r : Outcome α β) (s : Store α) : (lift r).run s = (r, s) := rfl

theorem run_setFamily (kind : FamilyKind) (owner : Id) (family : Family α) (s : Store α) :
    (setFamily kind owner family).run s =
      (.ok (), { s with families := s.families.insert ⟨kind, owner⟩ family }) := rfl

theorem run_of_outcome {m : StoreM α β} {s : Store α} {r : Outcome α β} (h : (m.run s).1 = r) :
    m.run s = (r, (m.run s).2) := Prod.ext h rfl

/-- A chain goes on from where its first operation ends, unless that fails. -/
theorem run_bind (m : StoreM α β) (f : β → StoreM α γ) (s : Store α) :
    (m >>= f).run s =
      match m.run s with
      | (.ok b, t) => (f b).run t
      | (.error e, t) => (.error e, t) := by
  rw [Stateful.run_bind]
  rcases m.run s with ⟨b | e, t⟩ <;> rfl

/-- A chain succeeds exactly when its first operation does and the rest does
from there. -/
theorem run_bind_eq_ok {m : StoreM α β} {f : β → StoreM α γ} {s u : Store α} {c : γ} :
    (m >>= f).run s = (.ok c, u) ↔ ∃ b t, m.run s = (.ok b, t) ∧ (f b).run t = (.ok c, u) :=
  Stateful.run_bind_eq_ok

theorem run_bind_of_ok {m : StoreM α β} {s t : Store α} {b : β} (h : m.run s = (.ok b, t))
    (f : β → StoreM α γ) : (m >>= f).run s = (f b).run t := Stateful.run_bind_of_ok h f

/-- Every run of an operation on a store goes along a relation. -/
abbrev Moves (R : Store α → Store α → Prop) (m : StoreM α β) : Prop := Stateful.Moves R m

/-- As many thresholds as before replace those. -/
theorem run_setCuts {cuts : List α} {s : Store α} (h : cuts.length = s.cuts.length) :
    (setCuts cuts).run s = (.ok (), { s with cuts }) := by
  rw [setCuts, run_bind, run_get]
  dsimp only
  rw [if_neg (not_not.2 h)]
  rfl

section

variable [Scalar α]

/-- Side information of the right size is stored, and other is refused. -/
theorem run_setSide (key : SideKey) (v : Vec α) (s : Store α) :
    (setSide key v).run s =
      if (s.shape.sideSize key.owner).isExactly v.size then
        (.ok (), { s with sides := s.sides.insert key v })
      else
        (.error (.sideCardinality key.owner v.size (s.shape.sideSize key.owner).spelling), s) := by
  rw [setSide, run_bind, run_get]
  dsimp only
  cases (s.shape.sideSize key.owner).isExactly v.size <;> rfl

/-- Every vector is the side information of its owner. -/
theorem sidesOf_eq_ok_iff {s : Store α} {user item : Id} {vectors : SideOwner → Vec α} :
    s.sidesOf user item = .ok vectors ↔
      ∀ owner, s.side (.ofOwner user item owner) = .ok (vectors owner) := by
  constructor
  · intro h owner
    obtain ⟨ofUser, huser, h⟩ := Outcome.bind_eq_ok.1 h
    obtain ⟨ofItem, hitem, h⟩ := Outcome.bind_eq_ok.1 h
    obtain ⟨ofPair, hpair, h⟩ := Outcome.bind_eq_ok.1 h
    cases h
    cases owner <;> assumption
  · intro h
    refine Outcome.bind_eq_ok.2 ⟨_, h .user, Outcome.bind_eq_ok.2 ⟨_, h .item, ?_⟩⟩
    refine Outcome.bind_eq_ok.2 ⟨_, h .pair, congrArg Except.ok (funext fun owner => ?_)⟩
    cases owner <;> rfl

/-- The side information of two stores is read alike if that of every owner is. -/
theorem sidesOf_agree {V : Vec α → Vec α → Prop} {s t : Store α} {user item : Id}
    (h : ∀ owner, Outcome.Agree V (s.side (.ofOwner user item owner))
      (t.side (.ofOwner user item owner))) :
    Outcome.Agree (fun vectors vectors' => ∀ owner, V (vectors owner) (vectors' owner))
      (s.sidesOf user item) (t.sidesOf user item) := by
  refine (h .user).bind fun _ _ huser => (h .item).bind fun _ _ hitem => ?_
  refine (h .pair).bind fun _ _ hpair => .ok fun owner => ?_
  cases owner
  · exact huser
  · exact hitem
  · exact hpair

/-- A family that is there is read, and another one is made and stored. -/
theorem run_family (kind : FamilyKind) (owner : Id) (s : Store α) :
    (family kind owner).run s =
      match s.families.find? ⟨kind, owner⟩ with
      | some vectors => (.ok vectors, s)
      | none =>
        match (freshFamily kind).run s with
        | (.ok vectors, t) =>
          (.ok vectors, { t with families := t.families.insert ⟨kind, owner⟩ vectors })
        | (.error e, t) => (.error e, t) := by
  rw [family, run_bind, run_get]
  dsimp only
  cases s.families.find? ⟨kind, owner⟩ with
  | some vectors => rfl
  | none =>
    dsimp only
    rw [run_bind]
    rcases (freshFamily kind).run s with ⟨vectors | e, t⟩ <;> rfl

end

end LatentFactors.Store
