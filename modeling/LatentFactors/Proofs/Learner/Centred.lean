import Mathlib.Algebra.BigOperators.Intervals
import Mathlib.Algebra.BigOperators.Ring.Finset
import LatentFactors.Proofs.Arithmetic.Real
import LatentFactors.Proofs.Gradient.ClosedForm
import LatentFactors.Proofs.Hypothesis.Distribution
import LatentFactors.Proofs.Learner.Progress
import LatentFactors.Proofs.Learner.Reading

/-!
# Parameters of unordered classes stay centred

With a softmax the parameters of side information sum to zero over the classes,
at every index and in every store that a run can reach.  They start that way,
and a step moves all classes at the same indices, by residuals that sum to zero:
exactly one class is the observed one, and the probabilities sum to one
(`Hypothesis.sum_residual_softmax`).  A penalty takes the same share of every
class.  Index zero, where the step is the residual alone, is no exception.

Factors start from draws and are not centred.
-/

namespace LatentFactors

variable {K : Type} [ExactScalar K]

/-- A family whose vectors sum to zero. -/
def Family.Centred (family : Family K) : Prop :=
  ∀ j, ∑ c ∈ Finset.range family.length, Family.entry family c j = 0

theorem Family.centred_zeros (count size : Nat) :
    Family.Centred (List.replicate count (.sparse (.zero size)) : Family K) := by
  intro j
  refine Finset.sum_eq_zero fun c hc => ?_
  rw [Finset.mem_range, List.length_replicate] at hc
  have hvector : (List.replicate count (.sparse (.zero size)) : Family K)[c]? =
      some (.sparse (.zero size)) := by
    rw [List.getElem?_replicate, if_pos hc]
  rw [Family.entry_of_getElem? hvector]
  rfl

theorem sum_range_getD (xs : List K) :
    ∑ c ∈ Finset.range xs.length, xs.getD c 0 = xs.sum := by
  induction xs with
  | nil => rfl
  | cons x xs ih =>
    rw [List.length_cons, Finset.sum_range_succ', List.sum_cons, add_comm]
    simp only [List.getD_cons_zero, List.getD_cons_succ]
    rw [ih]

/-- The residuals of unordered classes sum to zero. -/
theorem Hypothesis.sum_residual_softmax {y : Numeral K} {prediction : List K}
    (hsum : prediction.sum = 1) (hlabel : y.label < prediction.length) :
    ∑ c ∈ Finset.range prediction.length, Hypothesis.softmax.residual y prediction c = 0 := by
  have hindicator : ∑ c ∈ Finset.range prediction.length,
      (if c = y.label then (1 : K) else 0) = 1 := by
    rw [Finset.sum_ite_eq', if_pos (Finset.mem_range.2 hlabel)]
  simp only [residual]
  rw [Finset.sum_sub_distrib, hindicator, sum_range_getD, hsum, sub_self]

/-- An update by the softmax rule keeps a family centred if there is a
probability for each of its vectors, and the same feature for all of them. -/
theorem Family.Centred.updateFamily {g : Gradient K} (hrule : g.rule = .softmax)
    (hkind : g.hypothesis = .softmax) {old new : Family K} {f : Vec K} {y : Numeral K}
    {prediction : List K} (hsum : prediction.sum = 1) (hlength : prediction.length = old.length)
    {penalties : Penalties K} {kept : Option Int}
    (h : g.updateFamily old (.shared f) y prediction penalties kept = .ok new)
    (hold : Family.Centred old) : Family.Centred new := by
  intro j
  rw [(Gradient.updateFamily_aligned h).length]
  by_cases hj : j ∈ (Features.shared f).walked kept
  · rcases Nat.eq_zero_or_pos old.length with hnone | hsome
    · rw [hnone]
      rfl
    · obtain ⟨s, x, hs, hx, -⟩ := Gradient.exists_step_of_updateFamily h hsome hj
      obtain ⟨hlabel, lr, hlr, hpenalty⟩ := Gradient.exists_factors_of_steps hrule hs hx
      have hofKind : g.rule = .ofHypothesis g.hypothesis := by
        rw [hrule, hkind]
        rfl
      have hresidual := Hypothesis.sum_residual_softmax hsum hlabel
      rw [hlength] at hresidual
      by_cases hzero : j = 0
      · subst hzero
        have hentry (c : Nat) (hc : c ∈ Finset.range old.length) :
            Family.entry new c 0 = Family.entry old c 0 +
              lr * Hypothesis.softmax.residual y prediction c := by
          rw [Gradient.entry_updateFamily_zero hofKind (by rw [hkind]; decide) h hlr
            (Finset.mem_range.1 hc) hj, hkind]
        rw [Finset.sum_congr rfl hentry, Finset.sum_add_distrib, hold, ← Finset.mul_sum, hresidual,
          mul_zero, add_zero]
      · obtain ⟨lam, hlam⟩ := hpenalty hzero
        have hentry (c : Nat) (hc : c ∈ Finset.range old.length) :
            Family.entry new c j = Family.entry old c j +
              lr * (f.entry j * Hypothesis.softmax.residual y prediction c -
                lam * Family.entry old c j) := by
          rw [Gradient.entry_updateFamily hofKind h hlr (Finset.mem_range.1 hc) hj hzero hlam,
            hkind]
          rfl
        rw [Finset.sum_congr rfl hentry, Finset.sum_add_distrib, hold, ← Finset.mul_sum,
          Finset.sum_sub_distrib, ← Finset.mul_sum, hresidual, ← Finset.mul_sum, hold]
        ring
  · rw [Finset.sum_congr rfl fun c _ => Gradient.entry_updateFamily_stays h c hj]
    exact hold j

namespace Learner

variable {l : Learner K} {user item : Id} {s t : Store K}

/-- The parameters of side information are centred. -/
def CentredOf (kind : FamilyKind) (family : Family K) : Prop :=
  ∀ owner, kind.role = .parameters owner → Family.Centred family

theorem centredOf_starts {shape : Shape K} {source : Nat → K} {kind : FamilyKind}
    {family : Family K} (h : Store.Starts shape source kind family) : CentredOf kind family := by
  intro owner hrole
  unfold Store.Starts at h
  rw [hrole] at h
  obtain ⟨size, -, rfl⟩ := h
  exact Family.centred_zeros shape.vectorCount size

/-- A softmax over the scores of a user and an item has one probability for each
class, and these sum to one. -/
theorem prediction_of_softmax (hexp : ∀ x : K, 0 < Scalar.exp x) {shape : Shape K}
    {g : Gathered K} (hfits : g.Fits shape) {scored predicted : List K}
    (hkind : l.hypothesis = .softmax) (hscores : l.scores g = .ok scored)
    (hpredicted : l.hypothesis.predict scored = .ok predicted) :
    predicted.length = shape.vectorCount ∧ predicted.sum = 1 := by
  have hcount := length_of_scores hfits hscores
  rw [hkind] at hcount hpredicted
  rw [Hypothesis.predict] at hpredicted
  split at hpredicted
  · cases hpredicted
  · next hmany =>
    injection hpredicted with hpredicted
    subst hpredicted
    have hne : scored ≠ [] := by
      rintro rfl
      exact hmany (Nat.zero_lt_succ 2)
    exact ⟨(Hypothesis.length_softmaxOf scored).trans hcount,
      (Hypothesis.isDistribution_softmaxOf hexp hne).sum⟩

/-- Every change keeps the parameters of side information centred. -/
theorem Change.centred (hexp : ∀ x : K, 0 < Scalar.exp x) (hkind : l.hypothesis = .softmax)
    (hrule : l.gradient.rule = .softmax) (h : l.Change s t) (hwell : s.WellSized)
    (hs : s.Families CentredOf) : t.Families CentredOf := by
  cases h with
  | grow user item t h => exact h.keeps_families hs fun _ _ => centredOf_starts
  | give key v h => exact hs
  | forget key => exact hs
  | learn user item y g u new hgather himprove =>
    have hgrows : s.Grows user item u := (gather_moves l user item).of_run hgather
    have hu : u.Families CentredOf := hgrows.keeps_families hs fun _ _ => centredOf_starts
    have hread := readFrom_of_run hgather
    have hfits := fits_of_run hwell hgather
    obtain ⟨scored, predicted, himproves⟩ := improve_eq_ok himprove
    obtain ⟨hlength, hsum⟩ :=
      prediction_of_softmax hexp hfits hkind himproves.scores himproves.prediction
    refine Store.families_accept hu ?_ ?_ ?_
    · rintro _ ⟨⟩
    · rintro _ ⟨⟩
    · intro e he owner hrole
      obtain ⟨x, hx, -, hkey, hupdate⟩ := himproves.exists_term hread he
      rw [hkey] at hrole
      exact (hu _ _ (hread.parameters x hx) owner hrole).updateFamily hrule hkind hsum
        (hlength.trans (hfits.parameters x hx).symm) hupdate

theorem centred_after (hexp : ∀ x : K, 0 < Scalar.exp x) (hkind : l.hypothesis = .softmax)
    (hrule : l.gradient.rule = .softmax) (shape : Shape K) (draws : Draws K)
    (actions : List (Action K)) :
    (l.after actions (.create shape draws)).Families CentredOf := by
  have hboth : (l.after actions (.create shape draws)).WellSized ∧
      (l.after actions (.create shape draws)).Families CentredOf := by
    refine after_induction (P := fun t => t.WellSized ∧ t.Families CentredOf)
      ⟨Store.wellSized_create shape draws, Store.families_create _ shape draws⟩ ?_ actions
    rintro s t ⟨hwell, hs⟩ hchange
    exact ⟨hchange.wellSized hwell, hchange.centred hexp hkind hrule hwell hs⟩
  exact hboth.2

end Learner

/-- A learner of unordered classes by the softmax rule, after any run from a
store of any shape.  The parameters of a user or an item for some side
information can be read where its size is a count.  Whatever is read has a
vector for each class that has its own, which is every class where the shape
admits a softmax, and the vectors sum to zero at every index. -/
theorem softmax_parameters_sum_to_zero (hexp : ∀ x : K, 0 < Scalar.exp x) {l : Learner K}
    (hkind : l.hypothesis = .softmax) (hrule : l.gradient.rule = .softmax) (shape : Shape K)
    (draws : Draws K) (actions : List (Action K)) (key : FamilyKey) (owner : SideOwner)
    (hrole : key.kind.role = .parameters owner) :
    let s := l.after actions (.create shape draws)
    (∀ size : Nat, (shape.sideSize owner).vectorSize = .ok (size : Int) →
      ∃ family, s.reading key = .ok family) ∧
    ∀ family, s.reading key = .ok family →
      family.length = shape.vectorCount ∧
      (shape.Admits .softmax → (family.length : Int) = shape.classCount) ∧
      ∀ j, ∑ c ∈ Finset.range family.length, Family.entry family c j = 0 := by
  intro s
  have hshape : s.shape = shape := l.shape_after actions (.create shape draws)
  have hwell : s.WellSized := l.wellSized_after actions shape draws
  have hcentred : s.Families Learner.CentredOf :=
    Learner.centred_after hexp hkind hrule shape draws actions
  rw [Store.reading_of_parameters hrole]
  constructor
  · intro size hsize
    cases s.families.find? key with
    | some vectors => exact ⟨vectors, rfl⟩
    | none =>
      refine ⟨List.replicate shape.vectorCount (.sparse (.zero size)), ?_⟩
      dsimp only
      rw [Shape.zeros, hshape, hsize, Outcome.bind_ok, Vec.sparseZero_natCast]
      rfl
  · intro family hfamily
    have hboth : family.length = shape.vectorCount ∧ Family.Centred family := by
      cases hfind : s.families.find? key with
      | some vectors =>
        rw [hfind] at hfamily
        injection hfamily with hfamily
        subst hfamily
        refine ⟨?_, hcentred key vectors hfind owner hrole⟩
        rw [← hshape]
        exact (hwell.families key vectors hfind).length
      | none =>
        rw [hfind] at hfamily
        obtain ⟨size, -, hzeros⟩ := Outcome.bind_eq_ok.1 hfamily
        obtain ⟨zero, hzero, hfamily⟩ := Outcome.bind_eq_ok.1 hzeros
        obtain ⟨-, rfl⟩ := Vec.sparseZero_eq_ok hzero
        injection hfamily with hfamily
        rw [← hfamily, ← hshape]
        exact ⟨List.length_replicate, Family.centred_zeros _ _⟩
    refine ⟨hboth.1, fun hadmits => ?_, hboth.2⟩
    have hcount := hadmits.2
    rw [hboth.1, Shape.vectorCount_eq_toNat hadmits.1 hcount]
    omega

/-- Three classes and an item with side information, after a refused and an
accepted step. -/
theorem softmax_parameters_sum_to_zero_real :
    let l : Learner ℝ := ⟨.ofHypothesis .softmax (.ofInt 1), .ofInt 0, .ofInt 0, .ofInt 0,
      .flag true, .sideInfo (.ofInt 0) (.ofInt 1) (.ofInt 0)⟩
    let shape : Shape ℝ := ⟨.ofInt 0, 3, false, .ofInt 0, .ofInt 2, .ofInt 0⟩
    let s := l.after [.setSide (.item (.int 7)) (.dense #[2, 3]),
      .train (.int 1) (.int 7) (.integer 3), .train (.int 1) (.int 7) (.integer 1)]
        (.create shape (.ofSource fun _ => 0))
    ∃ family, s.reading ⟨.userOnItemSide, .int 1⟩ = .ok family ∧ family.length = 3 ∧
      ∀ j, ∑ c ∈ Finset.range family.length, Family.entry family c j = 0 := by
  intro l shape s
  obtain ⟨hexists, hsum⟩ := softmax_parameters_sum_to_zero Real.exp_pos (l := l) rfl rfl shape
    (.ofSource fun _ => 0) [.setSide (.item (.int 7)) (.dense #[2, 3]),
      .train (.int 1) (.int 7) (.integer 3), .train (.int 1) (.int 7) (.integer 1)]
    ⟨.userOnItemSide, .int 1⟩ .item rfl
  obtain ⟨family, hfamily⟩ := hexists 2 rfl
  obtain ⟨hlength, -, hzero⟩ := hsum family hfamily
  exact ⟨family, hfamily, hlength, hzero⟩

end LatentFactors
