import LatentFactors.Proofs.Arithmetic.Rational
import LatentFactors.Proofs.Gradient.Renumbering
import LatentFactors.Proofs.Learner.Locality
import LatentFactors.Proofs.Learner.Progress
import LatentFactors.Proofs.Store.Renumbering

/-!
# The numbers of unordered classes

Unordered classes have numbers only to tell them apart.  If a permutation gives them other
ones, in the store (`Store.renumbered`) and in the observation, then a step goes the same
way: what is gathered is renumbered (`Learner.run_gather_renumbered`), and so is what is
computed from it (`Learner.Improves.renumbered`) and written (`Store.accept_renumbered`).
A prediction gives every class its probability under the new number
(`Learner.run_predictFull_renumbered`).

`unordered_classes_renumbered` says this of the recommenders of a configuration.
-/

namespace LatentFactors

variable {n : Nat} {α : Type}

/-! ## Reading and writing -/

def GatheredTerm.renumbered (π : Equiv.Perm (Fin n)) (t : GatheredTerm α) : GatheredTerm α :=
  { t with parameters := LatentFactors.renumbered π t.parameters }

def Gathered.renumbered (π : Equiv.Perm (Fin n)) (g : Gathered α) : Gathered α :=
  ⟨g.cuts, LatentFactors.renumbered π g.users, LatentFactors.renumbered π g.items,
    g.terms.map (·.renumbered π)⟩

def Improved.renumbered (π : Equiv.Perm (Fin n)) (new : Improved α) : Improved α :=
  ⟨new.cuts, LatentFactors.renumbered π new.users, LatentFactors.renumbered π new.items,
    new.terms.map (Prod.map id (LatentFactors.renumbered π))⟩

@[simp] theorem Gathered.renumbered_symm_renumbered (π : Equiv.Perm (Fin n)) (g : Gathered α) :
    (g.renumbered π).renumbered π.symm = g := by
  obtain ⟨cuts, users, items, terms⟩ := g
  simp [renumbered, GatheredTerm.renumbered, Function.comp_def]

/-- Stored families are renumbered along with the rest. -/
theorem Store.withFamilies_renumbered (π : Equiv.Perm (Fin n))
    (families : List (FamilyKey × Family α)) (s : Store α) :
    (s.withFamilies families).renumbered π =
      (s.renumbered π).withFamilies (families.map (Prod.map id (LatentFactors.renumbered π))) := by
  induction families generalizing s with
  | nil => rfl
  | cons e rest ih =>
    have hrest := ih { s with families := s.families.insert e.1 e.2 }
    rw [renumbered_insert] at hrest
    exact hrest

theorem Store.accept_renumbered (π : Equiv.Perm (Fin n)) (s : Store α) (user item : Id)
    (new : Improved α) :
    (s.accept user item new).renumbered π =
      (s.renumbered π).accept user item (new.renumbered π) :=
  withFamilies_renumbered π (new.families user item) { s with cuts := new.cuts }

variable [Scalar α]

/-- From a renumbered store the same is gathered, renumbered, if no factors have to be
drawn. -/
theorem Learner.run_gather_renumbered (π : Equiv.Perm (Fin n)) (l : Learner α) {user item : Id}
    {s : Store α} (huser : s.hasFamily .userFactors user = true)
    (hitem : s.hasFamily .itemFactors item = true) :
    (l.gather user item).run (s.renumbered π) =
      (((l.gather user item).run s).1.map (·.renumbered π),
        ((l.gather user item).run s).2.renumbered π) := by
  refine Store.run_renumbered (couples_gather_of (fun key hkey => Store.family_renumbers π hkey)
    (V := Eq) ?_ ?_) (hasFactors_familyKeys huser hitem)
  · rintro s _ ⟨rfl, -⟩ term -
    exact .of_eq rfl
  · rintro s _ users _ items _ terms terms' ⟨rfl, -⟩ rfl rfl hterms
    have hsame : terms' = terms.map (·.renumbered π) := by
      have heq : List.Forall₂ Eq (terms.map (·.renumbered π)) terms' := by
        refine List.forall₂_map_left_iff.2 (hterms.imp ?_)
        rintro t ⟨_, _, _⟩ ⟨rfl, hparameters, rfl⟩
        rw [GatheredTerm.renumbered, ← hparameters]
      rw [List.forall₂_eq_eq_eq] at heq
      exact heq.symm
    rw [hsame]
    rfl

/-! ## Scores -/

namespace Gathered

variable {g : Gathered α} {shape : Shape α}

omit [Scalar α] in
theorem Fits.renumbered (h : g.Fits shape) (π : Equiv.Perm (Fin n)) :
    (g.renumbered π).Fits shape := by
  have hterm {x : GatheredTerm α} (hx : x ∈ (g.renumbered π).terms) :
      ∃ t ∈ g.terms, x = t.renumbered π := by
    obtain ⟨t, ht, rfl⟩ := List.mem_map.1 hx
    exact ⟨t, ht, rfl⟩
  refine ⟨h.cuts, (length_renumbered π _).trans h.users, (length_renumbered π _).trans h.items,
    ?_, ?_, ?_⟩
  · intro v hv w hw
    exact h.factors v (mem_renumbered.1 hv) w (mem_renumbered.1 hw)
  · intro x hx
    obtain ⟨t, ht, rfl⟩ := hterm hx
    exact (length_renumbered π _).trans (h.parameters t ht)
  · intro x hx v hv
    obtain ⟨t, ht, rfl⟩ := hterm hx
    exact h.features t ht v (mem_renumbered.1 hv)

/-- Every class keeps its score under its new number. -/
theorem scores_renumbered_of_ok (π : Equiv.Perm (Fin n)) {l : Learner α}
    (hkind : l.hypothesis = .softmax) (hfits : g.Fits shape) (hcount : shape.vectorCount = n)
    {scores : List α} (h : l.scores g = .ok scores) :
    l.scores (g.renumbered π) = .ok (LatentFactors.renumbered π scores) := by
  have hterms : ((g.renumbered π).terms.map fun t => (t.parameters, t.feature)) =
      (g.terms.map fun t => (t.parameters, t.feature)).map
        (Prod.map (LatentFactors.renumbered π) id) := by
    rw [Gathered.renumbered, List.map_map, List.map_map]
    rfl
  have hunordered : l.hypothesis ≠ .ordinal := by
    rw [hkind]
    decide
  rw [Learner.scores, hterms]
  refine Hypothesis.linearCombination_renumbered π hunordered (hfits.users.trans hcount)
    (hfits.items.trans hcount) (fun term hterm => ?_) h
  obtain ⟨t, ht, rfl⟩ := List.mem_map.1 hterm
  exact (hfits.parameters t ht).trans hcount

/-- The scores of renumbered classes are those of the classes, renumbered. -/
theorem scores_renumbered (π : Equiv.Perm (Fin n)) {l : Learner α}
    (hkind : l.hypothesis = .softmax) (hfits : g.Fits shape) (hcount : shape.vectorCount = n) :
    l.scores (g.renumbered π) = (l.scores g).map (LatentFactors.renumbered π) := by
  cases h : l.scores g with
  | ok scores => exact scores_renumbered_of_ok π hkind hfits hcount h
  | error e =>
    cases h' : l.scores (g.renumbered π) with
    | ok scores =>
      -- The inverse permutation gives back what was gathered.
      have hback := scores_renumbered_of_ok π.symm hkind (hfits.renumbered π) hcount h'
      rw [renumbered_symm_renumbered, h] at hback
      cases hback
    | error e' =>
      rw [Learner.fault_of_scores hfits h, Learner.fault_of_scores (hfits.renumbered π) h']
      rfl

end Gathered

/-! ## Steps -/

namespace Learner

variable {K : Type} [ExactScalar K] {π : Equiv.Perm (Fin n)} {l : Learner K} {user item : Id}
  {y y' : Numeral K} {label : Nat} {s : Store K} {g : Gathered K} {shape : Shape K}
  {new : Improved K}

section

variable (hrule : l.gradient.rule = .softmax) (hkind : l.hypothesis = .softmax)
  (hlabel : label < n) (hy : Outcome.whole y = .ok (label : Int))
  (hy' : Outcome.whole y' = .ok (renumber π label : Int))

include hrule hkind hlabel hy hy'

/-- The new parameters of renumbered classes are those of the classes, renumbered. -/
theorem Improves.renumbered {scored predicted : List K} (hfits : g.Fits shape)
    (hcount : shape.vectorCount = n) (h : l.Improves y g new scored predicted) :
    l.Improves y' (g.renumbered π) (new.renumbered π) (LatentFactors.renumbered π scored)
      (LatentFactors.renumbered π predicted) := by
  have hscored : scored.length = n := by
    rw [length_of_scores hfits h.scores, hkind]
    exact hcount
  have hpredict := h.prediction
  rw [hkind] at hpredict
  have hpredicted : predicted.length = n := by
    rw [← hscored, ← Hypothesis.length_softmaxOf scored]
    rw [Hypothesis.predict] at hpredict
    split at hpredict
    · cases hpredict
    · injection hpredict with hpredict
      rw [hpredict]
  have hunordered : l.gradient.rule ≠ .ordinal := by
    rw [hrule]
    decide
  have hcuts := h.cuts
  rw [Gradient.updateCuts_eq_settle hunordered] at hcuts
  have hterms : ∀ t ∈ g.terms, t.parameters.length = n :=
    fun t ht => (hfits.parameters t ht).trans hcount
  refine ⟨Gathered.scores_renumbered_of_ok π hkind hfits hcount h.scores, ?_, ?_, ?_, ?_, ?_⟩
  · rw [hkind]
    exact Hypothesis.predict_renumbered π hpredict
  · rw [Gradient.updateCuts_eq_settle hunordered]
    exact hcuts
  · exact Gradient.updateFamily_renumbered hrule (hfits.users.trans hcount) hpredicted hlabel hy
      hy' h.users
  · exact Gradient.updateFamily_renumbered hrule (hfits.items.trans hcount) hpredicted hlabel hy
      hy' h.items
  · have hboth := (List.forall₂_and_left _ _).2 ⟨hterms, h.terms⟩
    rw [Gathered.renumbered, Improved.renumbered, List.forall₂_map_left_iff,
      List.forall₂_map_right_iff]
    refine hboth.imp fun t e hterm => ?_
    obtain ⟨hparameters, hkey, hupdate⟩ := hterm
    refine ⟨hkey, ?_⟩
    exact Gradient.updateFamily_renumbered hrule hparameters hpredicted hlabel hy hy' hupdate

theorem improve_renumbered (hfits : g.Fits shape) (hcount : shape.vectorCount = n)
    (h : l.improve y g = .ok new) : l.improve y' (g.renumbered π) = .ok (new.renumbered π) := by
  obtain ⟨scored, predicted, himproves⟩ := improve_eq_ok h
  exact (himproves.renumbered hrule hkind hlabel hy hy' hfits hcount).improve_eq

/-- If nothing can be computed with the old numbers, neither can it with the new ones. -/
theorem improve_renumbered_fails (hfits : g.Fits shape) (hcount : shape.vectorCount = n)
    {e : Fault K} (h : l.improve y g = .error e) :
    ∃ e', l.improve y' (g.renumbered π) = .error e' := by
  cases h' : l.improve y' (g.renumbered π) with
  | error e' => exact ⟨e', rfl⟩
  | ok new' =>
    -- The inverse permutation gives back what was gathered.
    have hback := improve_renumbered hrule hkind (renumber_lt_iff.2 hlabel) hy'
      (by rwa [renumber_symm_renumber]) (hfits.renumbered π) hcount h'
    rw [Gathered.renumbered_symm_renumbered, h] at hback
    cases hback

end

/-- A step in the renumbered store leaves the renumbered store, and it succeeds exactly
when the step in the store does. -/
theorem train_renumbered (hrule : l.gradient.rule = .softmax) (hkind : l.hypothesis = .softmax)
    (hs : s.WellSized) (hcount : s.shape.vectorCount = n)
    (huser : s.hasFamily .userFactors user = true) (hitem : s.hasFamily .itemFactors item = true)
    (hcheck : l.gradient.checkLabel y s.shape.classCount = .ok ())
    (hcheck' : l.gradient.checkLabel y' s.shape.classCount = .ok ())
    (hlabel : label < n) (hy : Outcome.whole y = .ok (label : Int))
    (hy' : Outcome.whole y' = .ok (renumber π label : Int)) :
    let here := (l.train user item y).run s
    let there := (l.train user item y').run (s.renumbered π)
    (there.1 = .ok () ↔ here.1 = .ok ()) ∧ there.2 = here.2.renumbered π := by
  intro here there
  have hhere : here = _ := run_train l user item y s
  have hthere : there = _ := run_train l user item y' (s.renumbered π)
  have hshape : (s.renumbered π).shape = s.shape := rfl
  rw [hcheck] at hhere
  rw [hshape, hcheck', run_gather_renumbered π l huser hitem] at hthere
  cases hscope : l.requireScope with
  | error e =>
    rw [hscope, Outcome.bind_error] at hhere hthere
    rw [hhere, hthere]
    exact ⟨by simp, rfl⟩
  | ok _ =>
    rw [hscope, Outcome.bind_ok] at hhere hthere
    rcases hgather : (l.gather user item).run s with ⟨e | g, u⟩
    · rw [hgather] at hhere hthere
      rw [hhere, hthere]
      exact ⟨by simp [Except.map], rfl⟩
    · have hfits := fits_of_run hs hgather
      rw [hgather] at hhere hthere
      dsimp only [Except.map] at hhere hthere
      cases himprove : l.improve y g with
      | ok new =>
        have himprove' := improve_renumbered hrule hkind hlabel hy hy' hfits hcount himprove
        rw [himprove] at hhere
        rw [himprove'] at hthere
        rw [hhere, hthere]
        exact ⟨Iff.rfl, (Store.accept_renumbered π u user item new).symm⟩
      | error e =>
        obtain ⟨e', himprove'⟩ :=
          improve_renumbered_fails hrule hkind hlabel hy hy' hfits hcount himprove
        rw [himprove] at hhere
        rw [himprove'] at hthere
        rw [hhere, hthere]
        exact ⟨by simp, rfl⟩

/-- A prediction in the renumbered store is the renumbered prediction. -/
theorem run_predictFull_renumbered (hkind : l.hypothesis = .softmax) (hs : s.WellSized)
    (hcount : s.shape.vectorCount = n) (huser : s.hasFamily .userFactors user = true)
    (hitem : s.hasFamily .itemFactors item = true) :
    (l.predictFull user item).run (s.renumbered π) =
      (((l.predictFull user item).run s).1.map (LatentFactors.renumbered π),
        ((l.predictFull user item).run s).2.renumbered π) := by
  rw [run_predictFull, run_predictFull, run_gather_renumbered π l huser hitem]
  cases l.requireScope with
  | error e => rfl
  | ok _ =>
    rcases hgather : (l.gather user item).run s with ⟨e | g, u⟩
    · rfl
    · dsimp only [Except.map]
      rw [Gathered.scores_renumbered π hkind (fits_of_run hs hgather) hcount]
      cases hscores : l.scores g with
      | error e => rfl
      | ok scores =>
      dsimp only [Except.map]
      rw [hkind, Outcome.bind_ok, Outcome.bind_ok]
      refine Prod.ext ?_ rfl
      show Hypothesis.softmax.predict _ = Except.map _ (Hypothesis.softmax.predict scores)
      cases hpredict : Hypothesis.softmax.predict scores with
      | ok prediction => exact Hypothesis.predict_renumbered π hpredict
      | error e =>
        rw [Hypothesis.predict] at hpredict ⊢
        rw [length_renumbered]
        split at hpredict
        · next hfew =>
          rw [if_pos hfew, ← hpredict]
          rfl
        · cases hpredict

end Learner

/-! ## Configurations -/

/-- A recommender of a configuration for unordered classes, a permutation of these
classes, and a well sized store where a user and an item have factors.  If the families
are permuted, then learning the new number of a class leaves what learning the old one
leaves, permuted, and the prediction is the permuted distribution.  The new number of an
accepted label is accepted.

Both steps succeed if the settings are of the right types and sizes, and otherwise both of
them fail or neither does. -/
theorem unordered_classes_renumbered {K : Type} [ExactScalar K] {c : LearnerConfig K}
    {draws : Draws K} {r : Recommender K} (hr : c.recommender draws = .ok r)
    (hkind : r.learner.hypothesis = .softmax) {s : Store K} (hs : s.WellSized)
    (hshape : s.shape = r.store.shape) (hclasses : s.shape.classCount = n)
    (π : Equiv.Perm (Fin n)) {user item : Id} (huser : s.hasFamily .userFactors user = true)
    (hitem : s.hasFamily .itemFactors item = true) {y y' : Numeral K}
    (hy : r.learner.gradient.checkLabel y n = .ok ())
    (hy' : r.learner.gradient.checkLabel y' n = .ok ())
    (hlabel : y'.label = renumber π y.label) :
    let here := (r.learner.train user item y).run s
    let there := (r.learner.train user item y').run (s.renumbered π)
    let predicted := (r.learner.predictFull user item).run s
    3 ≤ n ∧
    r.learner.gradient.checkLabel (.integer (renumber π y.label)) n = .ok () ∧
    (there.1 = .ok () ↔ here.1 = .ok ()) ∧
    there.2 = here.2.renumbered π ∧
    (r.learner.predictFull user item).run (s.renumbered π) =
      (predicted.1.map (renumbered π), predicted.2.renumbered π) ∧
    (c.Typed → c.Sized → here.1 = .ok () ∧ ∃ distribution, predicted.1 = .ok distribution ∧
      distribution.length = n) := by
  intro here there predicted
  obtain ⟨kind, shape, hresolve, hc, hlearner, hstore, -⟩ := LearnerConfig.recommender_eq_ok hr
  have hsame : s.shape = shape := by
    rw [hshape, hstore]
    rfl
  have hsoftmax : kind = .softmax := by rwa [hlearner] at hkind
  have hrule : r.learner.gradient.rule = .softmax := by
    rw [hlearner, hsoftmax]
    rfl
  have hadmits : s.shape.Admits .softmax := by
    rw [hsame, ← hsoftmax]
    exact LearnerConfig.admits_of_exact hresolve hc
  have hmany : 3 ≤ s.shape.classCount := hadmits.2
  have hcount : s.shape.vectorCount = n := by
    rw [Shape.vectorCount_eq_toNat hadmits.1 hmany, hclasses, Int.toNat_natCast]
  obtain ⟨label, hwhole, hlt⟩ := Gradient.exists_whole (.inl hrule) hy
  obtain ⟨label', hwhole', -⟩ := Gradient.exists_whole (.inl hrule) hy'
  have hname : y.label = label := Numeral.label_of_whole hwhole
  have hname' : y'.label = label' := Numeral.label_of_whole hwhole'
  have hmoved : label' = renumber π label := by
    rw [← hname', hlabel, hname]
  subst hmoved
  have hinside : label < n := by omega
  have hinside' : renumber π label < n := renumber_lt_iff.2 hinside
  rw [← hclasses] at hy hy'
  obtain ⟨hsucceeds, hleaves⟩ := Learner.train_renumbered hrule hkind hs hcount huser hitem hy hy'
    hinside hwhole hwhole'
  refine ⟨by omega, ?_, hsucceeds, hleaves,
    Learner.run_predictFull_renumbered hkind hs hcount huser hitem, fun htyped hsized => ?_⟩
  · rw [hname]
    exact Gradient.checkLabel_integer (.inl hrule) (by omega)
  have hscope : r.learner.requireScope = .ok () := by
    rw [hlearner]
    exact c.requireScope_learner kind
  have hreadable : r.learner.Readable s.shape := by
    rw [hlearner, hsame]
    exact hsized.readable hc
  constructor
  · show ((r.learner.train user item y).run s).1 = _
    rw [← hy]
    rw [hlearner] at hreadable hscope ⊢
    exact Learner.train_outcome hs hreadable hscope (htyped.rated kind) rfl
      (by rwa [← hsoftmax] at hadmits) (htyped.rates _ (by decide)) ⟨_, Outcome.real_eq y⟩ user item
  · rw [← hkind] at hadmits
    obtain ⟨distribution, hdistribution, hlength⟩ :=
      Learner.exists_predictFull hs hreadable hscope hadmits user item
    exact ⟨distribution, hdistribution, by omega⟩

/-- Three classes that move on in a circle, with side information of the item. -/
theorem unordered_classes_renumbered_rational :
    let c : LearnerConfig ℚ :=
      (((LearnerConfig.default.set .classes (.ofInt 3)).set .sideInfo (.flag true)).set
        .itemSideSize (.ofInt 2)).set .factorSize (.ofInt 1)
    let actions : List (Action ℚ) :=
      [.setSide (.item (.int 7)) (.dense #[1, -2]), .train (.int 1) (.int 7) (.integer 2)]
    let π : Equiv.Perm (Fin 3) := ⟨(· + 1), (· + 2), by decide, by decide⟩
    ∃ r, c.recommender (.ofSource fun k => 1 / (k + 2)) = .ok r ∧
      r.learner.hypothesis = .softmax ∧
      let s := r.learner.after actions r.store
      let here := (r.learner.train (.int 1) (.int 7) (.real 1)).run s
      let there := (r.learner.train (.int 1) (.int 7) (.integer 2)).run (s.renumbered π)
      here.1 = .ok () ∧ there.1 = .ok () ∧ there.2 = here.2.renumbered π := by
  intro c actions π
  have hrates : ∀ f ∈ Field.rates, ∃ x, (c.setting f).vectorFactor = .ok x := by
    intro f hf
    simp only [Field.rates, List.mem_cons, List.not_mem_nil, or_false] at hf
    rcases hf with rfl | rfl | rfl | rfl | rfl | rfl | rfl <;> exact ⟨_, rfl⟩
  have hsides : ∀ f ∈ Field.sideSizes, ∃ m : Nat,
      (c.setting f).vectorSize = .ok (m : Int) ∧ (m : Int) < signedLimit := by
    intro f hf
    simp only [Field.sideSizes, List.mem_cons, List.not_mem_nil, or_false] at hf
    rcases hf with rfl | rfl | rfl
    · exact ⟨0, rfl, by decide⟩
    · exact ⟨2, rfl, by decide⟩
    · exact ⟨0, rfl, by decide⟩
  obtain ⟨r, hr, hkind, hcount, hlabels, huser, hitem⟩ : ∃ r,
      c.recommender (.ofSource fun k => 1 / (k + 2)) = .ok r ∧
        r.learner.hypothesis = .softmax ∧ r.store.shape.classCount = 3 ∧
        (r.learner.gradient.checkLabel (.real 1) (3 : Nat) = .ok () ∧
          r.learner.gradient.checkLabel (.integer 2) (3 : Nat) = .ok ()) ∧
        (r.learner.after actions r.store).hasFamily .userFactors (.int 1) = true ∧
        (r.learner.after actions r.store).hasFamily .itemFactors (.int 7) = true :=
    ⟨_, rfl, by decide, by decide, ⟨rfl, rfl⟩, by decide +kernel, by decide +kernel⟩
  obtain ⟨-, shape, -, -, -, hstore, -, hshape, hs⟩ := LearnerConfig.reached hr actions
  have hsame : (r.learner.after actions r.store).shape = r.store.shape := by
    rw [hshape, hstore]
    rfl
  obtain ⟨-, -, hsucceeds, hleaves, -, hlearned⟩ := unordered_classes_renumbered hr hkind hs hsame
    (by rw [hsame, hcount]; rfl) π huser hitem hlabels.1 hlabels.2 (by decide +kernel)
  have hhere := (hlearned ⟨⟨3, rfl⟩, hrates⟩ ⟨⟨1, rfl, by decide⟩, fun _ => hsides⟩).1
  exact ⟨r, hr, hkind, hhere, hsucceeds.2 hhere, hleaves⟩

end LatentFactors
