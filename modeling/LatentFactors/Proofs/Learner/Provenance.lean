import LatentFactors.Proofs.Arithmetic.Rational
import LatentFactors.Proofs.Gradient.Pointwise
import LatentFactors.Proofs.Learner.Frame
import LatentFactors.Proofs.Learner.Runs
import LatentFactors.Proofs.Store.Reading
import Mathlib.Data.List.Induction

/-!
# Where parameters of side information come from

Parameters of side information start at zero, and a step moves them only where the side
information that it finds for them is nonzero.  So whatever is nonzero among them can be
traced back through the run.

* `Store.Grows.nonzeroAt`: nothing that starts is nonzero.
* `Learner.nonzeroAt_accept`: what is nonzero after an accepted step was nonzero before it,
  or the side information that the step applies it to is nonzero at the same index,
  `Learner.Feeds`.  No other action makes anything nonzero (`Learner.nonzeroAt_perform`).
* `Learner.fed_after`: in a run from a new store, every nonzero entry was fed by an
  accepted step.  Side information may be replaced or forgotten later, so the step is
  looked at in the store that it found.
-/

namespace LatentFactors

variable {α : Type} [Scalar α]

namespace Gradient

/-- Where an updated entry is nonzero, the feature is, or some old vector was. -/
theorem nonzero_of_updateFamily {g : Gradient α} {parameters new : Family α} {feature w : Vec α}
    {y : Numeral α} {prediction : List α} {penalties : Penalties α} {kept : Option Int} {j : Nat}
    (h : g.updateFamily parameters (.shared feature) y prediction penalties kept = .ok new)
    (hw : w ∈ new) (hnonzero : Scalar.nonzero (w.entry j) = true) :
    (∃ v ∈ parameters, Scalar.nonzero (v.entry j) = true) ∨
      Scalar.nonzero (feature.entry j) = true := by
  obtain ⟨c, hc⟩ := List.mem_iff_getElem?.1 hw
  obtain ⟨v, hv, -⟩ := (updateFamily_aligned h).exists_old hc
  by_cases hwalked : j ∈ (Features.shared feature).walked kept
  · obtain ⟨⟨f, hf, hlisted⟩, -⟩ := Features.mem_walked.1 hwalked
    rw [List.mem_singleton.1 hf] at hlisted
    exact Or.inr (Vec.nonzero_of_mem_support hlisted).2
  · rw [entry_updateFamily_of_not_mem h hv hc hwalked] at hnonzero
    exact Or.inl ⟨v, List.mem_of_getElem? hv, hnonzero⟩

end Gradient

namespace Store

/-! ## Nonzero parameters -/

/-- Some vector of a family reads as nonzero at an index. -/
def NonzeroAt (s : Store α) (key : FamilyKey) (j : Nat) : Prop :=
  ∃ family, s.reading key = .ok family ∧ ∃ v ∈ family, Scalar.nonzero (v.entry j) = true

/-- Side information reads as nonzero at an index. -/
def SideNonzeroAt (s : Store α) (place : SideKey) (j : Nat) : Prop :=
  ∃ v, s.side place = .ok v ∧ Scalar.nonzero (v.entry j) = true

instance (s : Store α) (key : FamilyKey) (j : Nat) : Decidable (s.NonzeroAt key j) :=
  inferInstanceAs (Decidable (∃ family, s.reading key = .ok family ∧ ∃ v ∈ family, _))

instance (s : Store α) (place : SideKey) (j : Nat) : Decidable (s.SideNonzeroAt place j) :=
  inferInstanceAs (Decidable (∃ v, s.side place = .ok v ∧ _))

theorem nonzeroAt_of_find? {s : Store α} {key : FamilyKey} {family : Family α} {j : Nat}
    (hfind : s.families.find? key = some family)
    (h : ∃ v ∈ family, Scalar.nonzero (v.entry j) = true) : s.NonzeroAt key j :=
  ⟨family, reading_of_find? hfind, h⟩

variable {s t : Store α} {key : FamilyKey} {owner : SideOwner} {j : Nat}

/-- Two spellings of a key are nonzero alike. -/
theorem NonzeroAt.congr {key' : FamilyKey} (h : s.NonzeroAt key j)
    (hrole : key.kind.role = .parameters owner) (hkey : (key == key') = true) :
    s.NonzeroAt key' j := by
  obtain ⟨family, hfamily, hv⟩ := h
  exact ⟨family, (s.reading_congr hrole hkey).symm.trans hfamily, hv⟩

variable [ZeroLaw α]

/-- No parameters of side information start with anything nonzero. -/
theorem Starts.nonzero_eq_false {shape : Shape α} {source : Nat → α} {kind : FamilyKind}
    {family : Family α} (h : Starts shape source kind family)
    (hrole : kind.role = .parameters owner) {v : Vec α} (hv : v ∈ family) :
    Scalar.nonzero (v.entry j) = false := by
  rw [Starts, hrole] at h
  obtain ⟨size, -, rfl⟩ := h
  rw [List.eq_of_mem_replicate hv]
  exact Scalar.nonzero_zero

/-- Parameters that read as nonzero are there. -/
theorem NonzeroAt.exists_find? (h : s.NonzeroAt key j)
    (hrole : key.kind.role = .parameters owner) :
    ∃ family, s.families.find? key = some family ∧
      ∃ v ∈ family, Scalar.nonzero (v.entry j) = true := by
  obtain ⟨family, hfamily, v, hv, hnonzero⟩ := h
  rw [reading_of_parameters hrole] at hfamily
  cases hfind : s.families.find? key with
  | some held =>
    rw [hfind] at hfamily
    cases hfamily
    exact ⟨family, rfl, v, hv, hnonzero⟩
  | none =>
    rw [hfind] at hfamily
    have hrun := run_freshFamily_of_parameters (s := s) hrole
    rw [show s.shape.zeros owner = .ok family from hfamily] at hrun
    have hstarts : Starts s.shape s.draws.source key.kind family := starts_of_run hrun
    rw [hstarts.nonzero_eq_false hrole hv] at hnonzero
    cases hnonzero

/-- While a store grows, no parameters of side information become nonzero. -/
theorem Grows.nonzeroAt {user item : Id} (hgrows : s.Grows user item t) (h : t.NonzeroAt key j)
    (hrole : key.kind.role = .parameters owner) : s.NonzeroAt key j := by
  obtain ⟨family, hfind, v, hv, hnonzero⟩ := h.exists_find? hrole
  rcases hgrows.held_or_starts hfind with hheld | hstarts
  · exact nonzeroAt_of_find? hheld ⟨v, hv, hnonzero⟩
  · rw [hstarts.nonzero_eq_false hrole hv] at hnonzero
    cases hnonzero

/-- Where the families stay, side information comes and goes without any parameters
becoming nonzero. -/
theorem NonzeroAt.of_families (h : t.NonzeroAt key j) (hfamilies : t.families = s.families)
    (hrole : key.kind.role = .parameters owner) : s.NonzeroAt key j := by
  obtain ⟨family, hfind, hv⟩ := h.exists_find? hrole
  rw [hfamilies] at hfind
  exact nonzeroAt_of_find? hfind hv

end Store

namespace Learner

variable [ZeroLaw α] {l : Learner α} {user item : Id} {y : Numeral α} {s t u : Store α}
  {g : Gathered α} {new : Improved α} {key : FamilyKey} {owner : SideOwner} {j : Nat}

/-! ## One action -/

/-- A step for a user and an item applies parameters to side information that is nonzero
at an index. -/
def Feeds (l : Learner α) (user item : Id) (s : Store α) (key : FamilyKey) (j : Nat) : Prop :=
  ∃ term ∈ l.sideTerms user item, (term.key == key) = true ∧ s.SideNonzeroAt term.feature j

/-- Parameters that are nonzero after an accepted step were nonzero before, or the step
feeds them. -/
theorem nonzeroAt_accept (hgather : (l.gather user item).run s = (.ok g, u))
    (himprove : l.improve y g = .ok new) (hrole : key.kind.role = .parameters owner)
    (h : (u.accept user item new).NonzeroAt key j) :
    s.NonzeroAt key j ∨ l.Feeds user item s key j := by
  have hread := readFrom_of_run hgather
  have hgrows := (l.gather_moves user item).of_run hgather
  obtain ⟨scored, predicted, himproves⟩ := improve_eq_ok himprove
  obtain ⟨family, hfind, w, hw, hnonzero⟩ := h.exists_find? hrole
  rcases l.reached_or_not user item key with ⟨k, hk, hkey⟩ | hnot
  · have hkind : k.kind = key.kind := (FamilyKey.beq_iff.1 hkey).1
    rcases mem_familyKeys.1 hk with rfl | rfl | ⟨term, hterm, rfl⟩
    · rw [← hkind] at hrole
      cases hrole
    · rw [← hkind] at hrole
      cases hrole
    · obtain ⟨old, feature, updated, hold, hfeature, hupdated, hupdate⟩ :=
        himproves.exists_updated hread hterm
      rw [Table.find?_congr _ hkey, hfind] at hupdated
      cases hupdated
      rcases Gradient.nonzero_of_updateFamily hupdate hw hnonzero with hbefore | hside
      · have hbefore := Store.nonzeroAt_of_find? hold hbefore
        exact Or.inl (hgrows.nonzeroAt (hbefore.congr (hkind ▸ hrole) hkey) hrole)
      · rw [hgrows.side_eq] at hfeature
        exact Or.inr ⟨term, hterm, hkey, feature, hfeature, hside⟩
  · rw [find?_accept_of_not_mem himproves hread hnot] at hfind
    have hbefore := Store.nonzeroAt_of_find? hfind ⟨w, hw, hnonzero⟩
    exact Or.inl (hgrows.nonzeroAt hbefore hrole)

/-- What an action leaves nonzero was nonzero before, or the action is an accepted step
that feeds it. -/
theorem nonzeroAt_perform (l : Learner α) (action : Action α) (s : Store α)
    (hrole : key.kind.role = .parameters owner)
    (h : ((l.perform action).run s).2.NonzeroAt key j) :
    s.NonzeroAt key j ∨ ∃ user item y, action = .train user item y ∧
      ((l.train user item y).run s).1 = .ok () ∧ l.Feeds user item s key j := by
  cases action with
  | touchUser user => exact Or.inl ((Store.touch_moves .userFactors user s).nonzeroAt h hrole)
  | touchItem item => exact Or.inl ((Store.touch_moves .itemFactors item s).nonzeroAt h hrole)
  | setSide place v =>
    change ((Store.setSide place v).run s).2.NonzeroAt key j at h
    rw [Store.run_setSide] at h
    split at h
    · exact Or.inl (h.of_families rfl hrole)
    · exact Or.inl h
  | removePair user item => exact Or.inl (Store.NonzeroAt.of_families h rfl hrole)
  | predict user item =>
    rw [perform, Stateful.snd_run_bind_pure] at h
    exact Or.inl ((predict_moves l user item s).nonzeroAt h hrole)
  | predictFull user item =>
    rw [perform, Stateful.snd_run_bind_pure] at h
    exact Or.inl ((predictFull_moves l user item s).nonzeroAt h hrole)
  | train user item y =>
    rcases hrun : (l.train user item y).run s with ⟨r, t⟩
    rw [perform, hrun] at h
    rcases train_cases hrun with
      ⟨rfl, -⟩ | ⟨-, hgrows, -⟩ | ⟨g, u, new, hgather, himprove, hok, rfl⟩
    · exact Or.inl h
    · exact Or.inl (hgrows.nonzeroAt h hrole)
    · refine (nonzeroAt_accept hgather himprove hrole h).imp_right fun hfeeds => ?_
      exact ⟨user, item, y, rfl, (congrArg Prod.fst hrun).trans hok, hfeeds⟩

/-! ## Runs -/

/-- In a run, a step for a user and an item was accepted that found the store as it was. -/
def Trained (l : Learner α) (s : Store α) (actions : List (Action α)) (user item : Id)
    (found : Store α) : Prop :=
  ∃ before y later, actions = before ++ .train user item y :: later ∧
    found = l.after before s ∧ ((l.train user item y).run found).1 = .ok ()

/-- What a run makes nonzero was fed by one of its accepted steps. -/
theorem fed_after (l : Learner α) (hs : ¬s.NonzeroAt key j)
    (hrole : key.kind.role = .parameters owner) (actions : List (Action α))
    (h : (l.after actions s).NonzeroAt key j) :
    ∃ user item found, l.Trained s actions user item found ∧ l.Feeds user item found key j := by
  induction actions using List.reverseRecOn with
  | nil => exact absurd h hs
  | append_singleton before action ih =>
    rw [after_append, after_cons] at h
    rcases l.nonzeroAt_perform action _ hrole h with hbefore | ⟨user, item, y, rfl, hok, hfeeds⟩
    · obtain ⟨user, item, found, ⟨earlier, y, later, rfl, hfound, hok⟩, hfeeds⟩ := ih hbefore
      exact ⟨user, item, found, ⟨earlier, y, later ++ [action], by simp, hfound, hok⟩, hfeeds⟩
    · exact ⟨user, item, _, ⟨before, y, [], rfl, rfl, hok⟩, hfeeds⟩

/-- The side information that parameters of a kind apply to in a step for a user and an
item. -/
def fedBy (user item : Id) : FamilyKind → Option SideKey
  | .userFactors | .itemFactors => none
  | .userOnItemSide => some (.item item)
  | .itemOnUserSide => some (.user user)
  | .userOnDynamicSide | .itemOnDynamicSide => some (.pair user item)

omit [Scalar α] [ZeroLaw α] in
theorem fedBy_of_mem_sideTerms {term : SideTerm α} (h : term ∈ l.sideTerms user item) :
    fedBy user item term.key.kind = some term.feature := by
  rw [sideTerms] at h
  split at h
  · simp only [List.mem_cons, List.not_mem_nil, or_false] at h
    rcases h with rfl | rfl | rfl | rfl <;> rfl
  · cases h
  · cases h

theorem role_of_fedBy {kind : FamilyKind} {place : SideKey}
    (h : fedBy user item kind = some place) : kind.role = .parameters place.owner := by
  cases kind <;> cases h <;> rfl

omit [ZeroLaw α] in
/-- A step feeds parameters of its user and of its item, all from one place. -/
theorem Feeds.exists_place (h : l.Feeds user item s key j) :
    ((if key.kind.ofUser then user else item) == key.owner) = true ∧
      ∃ place, fedBy user item key.kind = some place ∧ s.SideNonzeroAt place j := by
  obtain ⟨term, hterm, hkey, hside⟩ := h
  obtain ⟨hkind, howner⟩ := FamilyKey.beq_iff.1 hkey
  have hconcerns : term.key.owner = if term.key.kind.ofUser then user else item :=
    (sideTerms_spec hterm).1
  rw [← hkind, ← hconcerns]
  exact ⟨Id.beq_iff.2 howner, term.feature, fedBy_of_mem_sideTerms hterm, hside⟩

/-- In a run from a new store, nonzero parameters come from side information that an
accepted step found. -/
theorem exists_source (l : Learner α) (shape : Shape α) (draws : Draws α)
    (actions : List (Action α)) {place : Id → Id → SideKey}
    (hplace : ∀ user item, fedBy user item key.kind = some (place user item))
    (h : (l.after actions (.create shape draws)).NonzeroAt key j) :
    ∃ user item found, ((if key.kind.ofUser then user else item) == key.owner) = true ∧
      l.Trained (.create shape draws) actions user item found ∧
        found.SideNonzeroAt (place user item) j := by
  have hrole := role_of_fedBy (hplace key.owner key.owner)
  have hcreate : ¬(Store.create shape draws).NonzeroAt key j := by
    intro hnonzero
    obtain ⟨family, hfind, -⟩ := hnonzero.exists_find? hrole
    cases hfind
  obtain ⟨user, item, found, htrained, hfeeds⟩ := l.fed_after hcreate hrole actions h
  obtain ⟨howner, fed, hfed, hside⟩ := hfeeds.exists_place
  rw [hplace] at hfed
  cases hfed
  exact ⟨user, item, found, howner, htrained, hside⟩

end Learner

/-- Parameters of side information grow only where side information was.  In every run
from a new store, if the parameters of a user for item side information are nonzero at an
index, for some class, then a step of this user was accepted for an item whose side
information at that moment was nonzero there.  The same holds of the parameters of a user
for the side information of pairs, of those of an item for it, and of those of an item for
user side information. -/
theorem side_parameters_have_a_source [ZeroLaw α] (l : Learner α) (shape : Shape α)
    (draws : Draws α) (actions : List (Action α)) (j : Nat) :
    let start := Store.create shape draws
    let s := l.after actions start
    (∀ user, s.NonzeroAt ⟨.userOnItemSide, user⟩ j →
        ∃ user' item found, (user' == user) = true ∧
          l.Trained start actions user' item found ∧ found.SideNonzeroAt (.item item) j) ∧
      (∀ user, s.NonzeroAt ⟨.userOnDynamicSide, user⟩ j →
        ∃ user' item found, (user' == user) = true ∧
          l.Trained start actions user' item found ∧
            found.SideNonzeroAt (.pair user' item) j) ∧
      (∀ item, s.NonzeroAt ⟨.itemOnUserSide, item⟩ j →
        ∃ user item' found, (item' == item) = true ∧
          l.Trained start actions user item' found ∧ found.SideNonzeroAt (.user user) j) ∧
      (∀ item, s.NonzeroAt ⟨.itemOnDynamicSide, item⟩ j →
        ∃ user item' found, (item' == item) = true ∧
          l.Trained start actions user item' found ∧
            found.SideNonzeroAt (.pair user item') j) := by
  intro start s
  refine ⟨fun user h => ?_, fun user h => ?_, fun item h => ?_, fun item h => ?_⟩
  · exact l.exists_source shape draws actions (fun _ _ => rfl) h
  · exact l.exists_source shape draws actions (fun _ _ => rfl) h
  · exact l.exists_source shape draws actions (fun _ _ => rfl) h
  · exact l.exists_source shape draws actions (fun _ _ => rfl) h

/-- Side information of an item that is replaced after a step, and of a pair that is
forgotten. -/
theorem side_parameters_have_a_source_of_replaced :
    let l : Learner ℚ := ⟨.ofHypothesis .ols (.ofReal (1 / 2)), .ofInt 0, .ofInt 0, .ofInt 0,
      .flag true, .sideInfo (.ofInt 0) (.ofInt 0) (.ofInt 0)⟩
    let start : Store ℚ := .create ⟨.ofInt 0, 1, false, .ofInt 0, .ofInt 2, .ofInt 1⟩
      (.ofSource fun _ => 0)
    let actions : List (Action ℚ) := [.setSide (.item (.int 7)) (.dense #[0, 3]),
      .setSide (.pair (.int 1) (.int 7)) (.dense #[2]), .train (.int 1) (.int 7) (.integer 2),
      .setSide (.item (.int 7)) (.dense #[5, 0]), .removePair (.int 1) (.int 7)]
    let s := l.after actions start
    (s.NonzeroAt ⟨.userOnItemSide, .int 1⟩ 1 ∧ ¬s.SideNonzeroAt (.item (.int 7)) 1 ∧
        ∃ user' item found, (user' == Id.int 1) = true ∧
          l.Trained start actions user' item found ∧ found.SideNonzeroAt (.item item) 1) ∧
      s.NonzeroAt ⟨.itemOnDynamicSide, .int 7⟩ 0 ∧
        ¬s.SideNonzeroAt (.pair (.int 1) (.int 7)) 0 ∧
          ∃ user item' found, (item' == Id.int 7) = true ∧
            l.Trained start actions user item' found ∧
              found.SideNonzeroAt (.pair user item') 0 := by
  intro l start actions s
  have hitem : s.NonzeroAt ⟨.userOnItemSide, .int 1⟩ 1 := by decide +kernel
  have hpair : s.NonzeroAt ⟨.itemOnDynamicSide, .int 7⟩ 0 := by decide +kernel
  exact ⟨⟨hitem, by decide +kernel, (side_parameters_have_a_source l _ _ actions 1).1 _ hitem⟩,
    hpair, by decide +kernel, (side_parameters_have_a_source l _ _ actions 0).2.2.2 _ hpair⟩

end LatentFactors
