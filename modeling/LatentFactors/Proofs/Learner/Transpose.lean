import LatentFactors.Proofs.Arithmetic.Rational
import LatentFactors.Proofs.Gradient.Exchange
import LatentFactors.Proofs.Hypothesis.Exchange
import LatentFactors.Proofs.Learner.Locality
import LatentFactors.Proofs.Learner.Reading
import LatentFactors.Proofs.Learner.Sizes
import LatentFactors.Proofs.Learner.Slots
import LatentFactors.Proofs.Store.Transpose

/-!
# Users and items are alike

Nothing in a step tells users from items.  If the roles of both are exchanged
throughout, in the store (`Store.transposed`), in the learner
(`Learner.transposed`) and in the observation, then a step goes the same way:
it fails in the one world exactly when it fails in the other, and otherwise the
stores after it are each other's transposition (`train_transposed`).

The parts of a step are followed one after the other.  What is gathered is
transposed (`Gathered.ReadOff.transposed`), although the side terms are read in
another order.  From it the same scores and the same prediction are computed,
and so the transposed parameters (`Learner.Improves.transposed`).

The scores are sums that are added up in another order, so this needs exact
arithmetic.  Exchanging the reserved entries needs dense factors that have
them, as in `Store.WellShaped`.
-/

namespace LatentFactors

variable {α : Type}

/-! ## The other world -/

/-- The penalties of users and items exchanged. -/
def Scope.transposed : Scope α → Scope α
  | nothing => nothing
  | factors => factors
  | sideInfo user item dynamic => sideInfo item user dynamic

/-- The side term of the other side. -/
def SideTerm.transposed (term : SideTerm α) : SideTerm α :=
  ⟨term.key.transposed, term.feature.transposed, term.penalty⟩

def GatheredTerm.transposed (x : GatheredTerm α) : GatheredTerm α :=
  ⟨x.term.transposed, x.parameters, x.feature⟩

/-- Side terms of a user and an item in the order of the other world, where
those of the item come first. -/
def itemFirst {β : Type} (terms : List β) : List β := terms.drop 2 ++ terms.take 2

theorem perm_itemFirst {β : Type} (terms : List β) : terms.Perm (itemFirst terms) := by
  have h : (terms.take 2 ++ terms.drop 2).Perm (itemFirst terms) := List.perm_append_comm
  rwa [List.take_append_drop] at h

theorem map_itemFirst {β γ : Type} (f : β → γ) (terms : List β) :
    (itemFirst terms).map f = itemFirst (terms.map f) := by
  rw [itemFirst, itemFirst, List.map_append, List.map_drop, List.map_take]

def Gathered.transposed (g : Gathered α) : Gathered α :=
  ⟨g.cuts, g.items.exchanged, g.users.exchanged, (itemFirst g.terms).map (·.transposed)⟩

def Improved.transposed (new : Improved α) : Improved α :=
  ⟨new.cuts, new.items.exchanged, new.users.exchanged,
    (itemFirst new.terms).map fun e => (e.1.transposed, e.2)⟩

namespace Learner

/-- The learner for users and items with exchanged roles. -/
def transposed (l : Learner α) : Learner α := { l with scope := l.scope.transposed }

@[simp] theorem transposed_transposed (l : Learner α) : l.transposed.transposed = l := by
  obtain ⟨gradient, biasPenalty, factorPenalty, cutPenalty, clampCuts, scope⟩ := l
  cases scope <;> rfl

theorem requireScope_transposed (l : Learner α) : l.transposed.requireScope = l.requireScope := by
  obtain ⟨gradient, biasPenalty, factorPenalty, cutPenalty, clampCuts, scope⟩ := l
  cases scope <;> rfl

theorem sideTerms_transposed (l : Learner α) (user item : Id) :
    l.transposed.sideTerms item user =
      (itemFirst (l.sideTerms user item)).map SideTerm.transposed := by
  obtain ⟨gradient, biasPenalty, factorPenalty, cutPenalty, clampCuts, scope⟩ := l
  cases scope <;> rfl

theorem transposed_mem_familyKeys {l : Learner α} {user item : Id} {key : FamilyKey}
    (h : key ∈ l.familyKeys user item) : key.transposed ∈ l.transposed.familyKeys item user := by
  rcases mem_familyKeys.1 h with rfl | rfl | ⟨term, hterm, rfl⟩
  · exact mem_familyKeys.2 (.inr (.inl rfl))
  · exact mem_familyKeys.2 (.inl rfl)
  · have hterm' : term.transposed ∈ l.transposed.sideTerms item user := by
      rw [sideTerms_transposed]
      exact List.mem_map_of_mem ((perm_itemFirst _).mem_iff.1 hterm)
    exact key_mem_familyKeys hterm'

/-- The penalties of the factors do not tell the biases apart. -/
theorem forIndex_exchanged (l : Learner α) (i : Nat) :
    l.factorPenalties.forIndex (exchangedIndex i : Nat) = l.factorPenalties.forIndex i := by
  match i with
  | 0 | 1 | 2 | _ + 3 => rfl

end Learner

variable [Scalar α]

/-- Parameters of side information read in the other world as they read here. -/
theorem Store.reading_transposed (s : Store α) {key : FamilyKey} {owner : SideOwner}
    (hrole : key.kind.role = .parameters owner) :
    s.transposed.reading key.transposed = s.reading key := by
  have hrole' : key.transposed.kind.role = .parameters owner.transposed := by
    show key.kind.transposed.role = _
    rw [FamilyKind.role_transposed, hrole]
    rfl
  rw [reading_of_parameters hrole, reading_of_parameters hrole', find?_transposed, hrole]
  cases s.families.find? key with
  | some family => rfl
  | none =>
    show s.transposed.shape.zeros owner.transposed = s.shape.zeros owner
    rw [Shape.zeros, Shape.zeros, shape_transposed, Shape.sideSize_transposed]
    rfl

/-! ## Well shaped stores -/

theorem Shape.hasSize_transposed {shape : Shape α} {kind : FamilyKind} {size : Nat}
    (h : shape.HasSize kind size) : shape.transposed.HasSize kind.transposed size := by
  rw [HasSize, FamilyKind.role_transposed]
  rw [HasSize] at h
  cases hrole : kind.role with
  | factors intercept =>
    rw [hrole] at h
    exact h
  | parameters owner =>
    rw [hrole] at h
    show (shape.transposed.sideSize owner.transposed).vectorSize = _
    rw [sideSize_transposed]
    exact h

/-- A store in which everything has its size and the factors are dense. -/
structure Store.WellShaped (s : Store α) : Prop where
  sized : s.WellSized
  dense : s.Families fun kind family =>
    ∀ intercept, kind.role = .factors intercept → ∀ v ∈ family, v.isSparse = false

namespace Store.WellShaped

variable {s : Store α}

/-- Stored factors have room for the reserved entries. -/
theorem areFactors (h : s.WellShaped) {n : Nat} (hsize : s.shape.factorSize.count = .ok (n : Int))
    {key : FamilyKey} {intercept : Nat} (hrole : key.kind.role = .factors intercept)
    {family : Family α} (hfind : s.families.find? key = some family) : family.AreFactors := by
  intro v hv
  refine ⟨h.dense key family hfind intercept hrole v hv, ?_⟩
  have hvsize := (h.sized.families key family hfind).size v hv
  rw [Shape.HasSize, hrole] at hvsize
  dsimp only at hvsize
  rw [hsize] at hvsize
  injection hvsize with hvsize
  omega

theorem transposed (h : s.WellShaped) : s.transposed.WellShaped := by
  -- Every family in the transposed store is the transposition of one in the store.
  have hback {key : FamilyKey} {family : Family α}
      (hfind : s.transposed.families.find? key = some family) :
      ∃ before, s.families.find? key.transposed = some before ∧
        family = Family.transposed key.transposed.kind.role before := by
    rw [← key.transposed_transposed, Store.find?_transposed, Option.map_eq_some_iff] at hfind
    obtain ⟨before, hbefore, rfl⟩ := hfind
    exact ⟨before, hbefore, rfl⟩
  refine ⟨⟨h.sized.cuts, fun key family hfind => ?_, fun key v hfind => ?_⟩,
    fun key family hfind intercept hrole w hw => ?_⟩
  · obtain ⟨before, hbefore, rfl⟩ := hback hfind
    obtain ⟨hlength, hsizes⟩ := h.sized.families _ _ hbefore
    refine ⟨(Family.length_transposed _ _).trans hlength, fun w hw => ?_⟩
    obtain ⟨v, hv, hwsize, -⟩ := Family.exists_of_mem_transposed hw
    have hkind := Shape.hasSize_transposed (hsizes v hv)
    rwa [hwsize, ← key.kind.transposed_transposed]
  · rw [← key.transposed_transposed, Store.find?_sides_transposed] at hfind
    rw [← key.transposed_transposed, SideKey.owner_transposed, Store.shape_transposed,
      Shape.sideSize_transposed]
    exact h.sized.sides _ _ hfind
  · obtain ⟨before, hbefore, rfl⟩ := hback hfind
    obtain ⟨v, hv, -, hdense⟩ := Family.exists_of_mem_transposed hw
    have hrole' : key.transposed.kind.role = .factors (exchangedIndex intercept) := by
      show key.kind.transposed.role = _
      rw [FamilyKind.role_transposed, hrole]
      rfl
    exact hdense.trans (h.dense _ _ hbefore _ hrole' v hv)

end Store.WellShaped

/-- Every run from a new store keeps it well shaped. -/
theorem Learner.wellShaped_after [ZeroLaw α] (l : Learner α) {shape : Shape α} {n : Nat}
    (hsize : shape.factorSize.count = .ok (n : Int)) (draws : Draws α)
    (actions : List (Action α)) : (l.after actions (.create shape draws)).WellShaped := by
  refine ⟨l.wellSized_after actions shape draws, fun key family hfind intercept hrole => ?_⟩
  exact (l.slots_after hsize draws actions key family hfind intercept hrole).dense

/-! ## A step, part by part -/

/-- What is gathered in the other world is the transposition of what is gathered
here. -/
theorem Gathered.ReadOff.transposed {g : Gathered α} {l : Learner α} {user item : Id}
    {s : Store α} (h : g.ReadOff l user item s) :
    g.transposed.ReadOff l.transposed item user s.transposed := by
  have hterms {x : GatheredTerm α} (hx : x ∈ g.transposed.terms) :
      ∃ before ∈ g.terms, x = before.transposed := by
    obtain ⟨before, hbefore, rfl⟩ := List.mem_map.1 hx
    exact ⟨before, (perm_itemFirst _).mem_iff.2 hbefore, rfl⟩
  refine ⟨h.cuts, ?_, ?_, ?_, fun x hx => ?_, fun x hx => ?_⟩
  · exact (s.find?_transposed ⟨.itemFactors, item⟩).trans (congrArg _ h.items)
  · exact (s.find?_transposed ⟨.userFactors, user⟩).trans (congrArg _ h.users)
  · rw [Learner.sideTerms_transposed, ← h.terms, ← map_itemFirst, Gathered.transposed, List.map_map,
      List.map_map]
    rfl
  · obtain ⟨before, hbefore, rfl⟩ := hterms hx
    have hterm := Learner.term_mem_sideTerms h.terms hbefore
    have hrole := (Learner.sideTerms_spec hterm).2.1
    exact (s.reading_transposed hrole).trans (h.parameters before hbefore)
  · obtain ⟨before, hbefore, rfl⟩ := hterms hx
    exact (s.side_transposed before.term.feature).trans (h.features before hbefore)

/-- The new parameters in the other world are the transposition of those here. -/
theorem Learner.Improves.transposed {K : Type} [ExactScalar K] {l : Learner K} {y : Numeral K}
    {g : Gathered K} {new : Improved K} {scored predicted : List K}
    (h : l.Improves y g new scored predicted) (husers : g.users.AreFactors)
    (hitems : g.items.AreFactors) (hsizes : ∀ v ∈ g.users, ∀ w ∈ g.items, v.size = w.size)
    (hne : g.users ≠ []) (hne' : g.items ≠ []) :
    l.transposed.Improves y g.transposed new.transposed scored predicted := by
  refine ⟨?_, h.prediction, h.cuts, ?_, ?_, ?_⟩
  · have hterms : (g.terms.map fun t => (t.parameters, t.feature)).Perm
        (g.transposed.terms.map fun t => (t.parameters, t.feature)) := by
      rw [Gathered.transposed, List.map_map]
      exact (perm_itemFirst g.terms).map _
    exact Hypothesis.linearCombination_exchanged husers hitems hsizes hterms h.scores
  · exact Gradient.updateFamily_exchanged hitems husers l.forIndex_exchanged h.items hne'
  · exact Gradient.updateFamily_exchanged husers hitems l.forIndex_exchanged h.users hne
  · have hterms := List.rel_append (List.forall₂_drop 2 h.terms) (List.forall₂_take 2 h.terms)
    rw [Gathered.transposed, Improved.transposed, List.forall₂_map_left_iff,
      List.forall₂_map_right_iff]
    exact hterms.imp fun x e hx => ⟨congrArg FamilyKey.transposed hx.1, hx.2⟩

omit [Scalar α] in
/-- What is written in the other world is the transposition of what is written
here. -/
theorem Improved.transposed_mem_families {new : Improved α} {user item : Id}
    (hterms : ∀ e ∈ new.terms, ∃ owner, e.1.kind.role = .parameters owner)
    {e : FamilyKey × Family α} (h : e ∈ new.families user item) :
    (e.1.transposed, Family.transposed e.1.kind.role e.2) ∈ new.transposed.families item user := by
  rcases mem_families.1 h with rfl | rfl | h
  · exact mem_families.2 (.inr (.inl rfl))
  · exact mem_families.2 (.inl rfl)
  · obtain ⟨owner, hrole⟩ := hterms e h
    rw [hrole]
    refine mem_families.2 (.inr (.inr ?_))
    exact List.mem_map_of_mem ((perm_itemFirst new.terms).mem_iff.1 h)

namespace Learner

omit [Scalar α] in
/-- What is reached in the other world is what is reached here. -/
theorem beq_transposed_of_mem_familyKeys {l : Learner α} {user item : Id} {key : FamilyKey}
    (h : ∀ k ∈ l.familyKeys user item, (k == key) = false) {k : FamilyKey}
    (hk : k ∈ l.transposed.familyKeys item user) : (k == key.transposed) = false := by
  have hback := transposed_mem_familyKeys hk
  rw [transposed_transposed] at hback
  rw [← FamilyKey.beq_transposed, FamilyKey.transposed_transposed]
  exact h k.transposed hback

section

variable {l : Learner α} {user item : Id} {y : Numeral α} {s u u' : Store α} {g : Gathered α}
  {new : Improved α} {scored predicted scored' predicted' : List α}
  (hgather : (l.gather user item).run s = (.ok g, u))
  (hgather' : (l.transposed.gather item user).run s.transposed = (.ok g.transposed, u'))
  (h : l.Improves y g new scored predicted)
  (h' : l.transposed.Improves y g.transposed new.transposed scored' predicted')

include hgather hgather' h h'

/-- The families after a step in the other world are those after the step here. -/
theorem find?_accept_transposed (key : FamilyKey) :
    (u'.accept item user new.transposed).families.find? key.transposed =
      ((u.accept user item new).families.find? key).map (Family.transposed key.kind.role) := by
  have hread := readFrom_of_run hgather
  have hread' := readFrom_of_run hgather'
  rcases l.reached_or_not user item key with ⟨k, hk, hkey⟩ | hother
  · rw [← h.keys hread] at hk
    obtain ⟨e, he, rfl⟩ := List.mem_map.1 hk
    have hroles : ∀ e ∈ new.terms, ∃ owner, e.1.kind.role = .parameters owner := by
      intro e he
      obtain ⟨x, -, hterm, hkey, -⟩ := h.exists_term hread he
      exact ⟨_, hkey ▸ (sideTerms_spec hterm).2.1⟩
    have hfound := find?_accept_of_mem h' hread' (Improved.transposed_mem_families hroles he)
    have hkey' : (e.1.transposed == key.transposed) = true :=
      (FamilyKey.beq_transposed e.1 key).trans hkey
    rw [← Table.find?_congr _ hkey, ← Table.find?_congr _ hkey', find?_accept_of_mem h hread he,
      hfound, Option.map_some, (FamilyKey.beq_iff.1 hkey).1]
  · have hother' : ∀ k ∈ l.transposed.familyKeys item user, (k == key.transposed) = false :=
      fun k hk => beq_transposed_of_mem_familyKeys hother hk
    have hchanges := (moves_gather fun _ hk => Store.family_changesOnly hk).of_run hgather
    have hchanges' := (moves_gather fun _ hk => Store.family_changesOnly hk).of_run hgather'
    rw [find?_accept_of_not_mem h hread hother, find?_accept_of_not_mem h' hread' hother',
      hchanges.families key hother, hchanges'.families _ hother', Store.find?_transposed]

/-- The store after a step in the other world is the transposition of the store
after the step here, if no factors had to be drawn. -/
theorem same_accept_transposed (hfactors : s.HasFactors (l.familyKeys user item))
    (hfactors' : s.transposed.HasFactors (l.transposed.familyKeys item user)) :
    (u.accept user item new).transposed.Same (u'.accept item user new.transposed) := by
  have hchanges := (moves_gather fun _ hk => Store.family_changesOnly hk).of_run hgather
  have hchanges' := (moves_gather fun _ hk => Store.family_changesOnly hk).of_run hgather'
  have hdraws := (moves_gather fun _ hk => Store.family_keepsDraws hk).of_run hgather hfactors
  have hdraws' := (moves_gather fun _ hk => Store.family_keepsDraws hk).of_run hgather' hfactors'
  refine ⟨?_, fun key => ?_, fun key => ?_, rfl, ?_⟩
  · exact hchanges'.shape.trans (congrArg Shape.transposed hchanges.shape).symm
  · rw [← key.transposed_transposed, find?_accept_transposed hgather hgather' h h',
      Store.find?_transposed]
  · have hsides : u'.sides = u.transposed.sides := by
      rw [hchanges'.sides, Store.transposed, Store.transposed, hchanges.sides]
    exact congrArg (Table.find? · key) hsides
  · exact hdraws'.2.trans hdraws.2.symm

end

/-- A step that succeeds here succeeds in the other world. -/
theorem run_train_transposed {K : Type} [ExactScalar K] {l : Learner K} {user item : Id}
    {y : Numeral K} {s t : Store K} (hs : s.WellShaped) {n : Nat}
    (hsize : s.shape.factorSize.count = .ok (n : Int))
    (huser : s.hasFamily .userFactors user = true) (hitem : s.hasFamily .itemFactors item = true)
    (h : (l.train user item y).run s = (.ok (), t)) :
    ∃ t', (l.transposed.train item user y).run s.transposed = (.ok (), t') ∧
      t.transposed.Same t' := by
  obtain ⟨hscope, hlabel, g, u, new, hgather, himprove, rfl⟩ := train_eq_ok_iff.1 h
  obtain ⟨scored, predicted, himproves⟩ := improve_eq_ok himprove
  have hoff := readOff_of_run huser hitem hgather
  obtain ⟨-, hcount, hcount', hsizes, -, -⟩ := fits_of_run hs.sized hgather
  have hpos := s.shape.vectorCount_pos
  have hne : g.users ≠ [] := List.ne_nil_of_length_pos (by omega)
  have hne' : g.items ≠ [] := List.ne_nil_of_length_pos (by omega)
  have himproves' := himproves.transposed (hs.areFactors hsize rfl hoff.users)
    (hs.areFactors hsize rfl hoff.items) hsizes hne hne'
  obtain ⟨u', hgather'⟩ := exists_run_gather hoff.transposed
  refine ⟨u'.accept item user new.transposed, train_eq_ok_iff.2 ?_, ?_⟩
  · exact ⟨(requireScope_transposed l).trans hscope, hlabel, g.transposed, u', new.transposed,
      hgather', himproves'.improve_eq, rfl⟩
  · exact same_accept_transposed hgather hgather' himproves himproves'
      (hasFactors_familyKeys huser hitem)
      (hasFactors_familyKeys (s.hasFamily_transposed hitem) (s.hasFamily_transposed huser))

end Learner

/-- A step in the other world fails exactly when the step here fails, and
otherwise it leaves the transposition of the store that the step here leaves. -/
theorem train_transposed {K : Type} [ExactScalar K] (l : Learner K) (user item : Id)
    (y : Numeral K) {s : Store K} (hs : s.WellShaped) {n : Nat}
    (hsize : s.shape.factorSize.count = .ok (n : Int))
    (huser : s.hasFamily .userFactors user = true) (hitem : s.hasFamily .itemFactors item = true) :
    let here := (l.train user item y).run s
    let there := (l.transposed.train item user y).run s.transposed
    ((∃ e, there.1 = .error e) ↔ ∃ e, here.1 = .error e) ∧
      (here.1 = .ok () → there.1 = .ok () ∧ here.2.transposed.Same there.2) := by
  intro here there
  have hforward (hok : here.1 = .ok ()) : there.1 = .ok () ∧ here.2.transposed.Same there.2 := by
    obtain ⟨t', hrun, hsame⟩ := Learner.run_train_transposed hs hsize huser hitem
      (Store.run_of_outcome hok)
    show there.1 = _ ∧ Store.Same _ there.2
    have hthere : there = (.ok (), t') := hrun
    rw [hthere]
    exact ⟨rfl, hsame⟩
  -- The world here is the other world of the other world.
  have hback (hok : there.1 = .ok ()) : here.1 = .ok () := by
    obtain ⟨t', hrun, -⟩ := Learner.run_train_transposed hs.transposed hsize
      (s.hasFamily_transposed hitem) (s.hasFamily_transposed huser) (Store.run_of_outcome hok)
    rw [Learner.transposed_transposed, Store.transposed_transposed] at hrun
    exact congrArg Prod.fst hrun
  have hfails (r : Outcome K Unit) : (∃ e, r = .error e) ↔ ¬ r = .ok () := by
    cases r <;> simp
  rw [hfails, hfails]
  exact ⟨not_congr ⟨hback, fun hok => (hforward hok).1⟩, hforward⟩

/-- A step with side information of both sides and of the pair. -/
theorem train_transposed_with_sides :
    let l : Learner ℚ := ⟨.ofHypothesis .logistic (.ofInt 1), .ofInt 1, .ofInt 2, .ofInt 0,
      .flag true, .sideInfo (.ofInt 3) (.ofInt 4) (.ofInt 5)⟩
    let shape : Shape ℚ := ⟨.ofInt 1, 2, false, .ofInt 2, .ofInt 1, .ofInt 1⟩
    let s := l.after [.touchUser (.int 1), .touchItem (.int 7),
      .setSide (.user (.int 1)) (.dense #[0, 2]), .setSide (.item (.int 7)) (.dense #[3]),
      .setSide (.pair (.int 1) (.int 7)) (.dense #[5])] (.create shape (.ofSource fun _ => 0))
    let here := (l.train (.int 1) (.int 7) (.integer 1)).run s
    let there := (l.transposed.train (.int 7) (.int 1) (.integer 1)).run s.transposed
    here.1 = .ok () ∧ there.1 = .ok () ∧ here.2.transposed.Same there.2 := by
  intro l shape s here there
  have hs : s.WellShaped := Learner.wellShaped_after l (n := 1) rfl _ _
  have hshape : s.shape = shape := Learner.shape_after l _ _
  have hpresent : s.hasFamily .userFactors (.int 1) = true ∧
      s.hasFamily .itemFactors (.int 7) = true ∧ here.1.isOk = true := by decide +kernel
  obtain ⟨huser, hitem, hsucceeds⟩ := hpresent
  have hsize : s.shape.factorSize.count = .ok ((1 : Nat) : Int) := by
    rw [hshape]
    rfl
  have hok : here.1 = .ok () := by
    cases hrun : here.1 with
    | error e =>
      rw [hrun] at hsucceeds
      cases hsucceeds
    | ok _ => rfl
  exact ⟨hok, (train_transposed l (.int 1) (.int 7) (.integer 1) hs hsize huser hitem).2 hok⟩

end LatentFactors
