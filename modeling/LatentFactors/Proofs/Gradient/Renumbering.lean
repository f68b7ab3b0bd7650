import LatentFactors.Proofs.Gradient.ClosedForm
import LatentFactors.Proofs.Renumbering
import LatentFactors.Proofs.Vec.Product

/-!
# Updates of renumbered families

Unordered classes can be renumbered, together with everything that belongs to one of
them: the scores and the prediction (`Hypothesis.linearCombination_renumbered`,
`Hypothesis.softmaxOf_renumbered`), the steps (`Gradient.steps_renumbered`) and the
updated family (`Gradient.updateFamily_renumbered`).

For this every class has to be paired with its own parameters, features and probability,
and what all classes share must not depend on their order.  Shared are the largest score,
the sum of the weights and the indices of the walk.  The sum needs exact arithmetic.
-/

namespace LatentFactors

variable {n : Nat}

/-! ## Scores and predictions -/

section Scores

variable {α : Type} [Scalar α] (π : Equiv.Perm (Fin n))

theorem Hypothesis.classScore_renumbered {terms : List (Family α × Vec α)}
    (h : ∀ term ∈ terms, term.1.length = n) (c : Nat) (user item : Vec α) :
    classScore (renumber π c) user item (terms.map (Prod.map (renumbered π) id)) =
      classScore c user item terms := by
  rw [classScore, classScore]
  refine bind_congr fun start => Outcome.foldlM_eq_foldlM ?_ start
  rw [List.forall₂_map_left_iff, List.forall₂_same]
  intro term hterm score
  rw [Prod.map_fst, Prod.map_snd, nth_renumbered π (h term hterm)]
  rfl

/-- Every class keeps its score. -/
theorem Hypothesis.linearCombination_renumbered {h : Hypothesis} (hkind : h ≠ .ordinal)
    {cuts cuts' scores : List α} {users items : Family α} {terms : List (Family α × Vec α)}
    (husers : users.length = n) (hitems : items.length = n)
    (hterms : ∀ term ∈ terms, term.1.length = n)
    (hok : h.linearCombination cuts users items terms = .ok scores) :
    h.linearCombination cuts' (renumbered π users) (renumbered π items)
      (terms.map (Prod.map (renumbered π) id)) = .ok (renumbered π scores) := by
  have hsame : users.length = items.length := husers.trans hitems.symm
  have hsame' : (renumbered π users).length = (renumbered π items).length := by
    rw [length_renumbered, length_renumbered, hsame]
  have hlength : (users.zip items).length = n := by
    rw [List.length_zip, husers, hitems, Nat.min_self]
  rw [linearCombination_of_classes hkind hsame] at hok
  rw [linearCombination_of_classes hkind hsame', zip_renumbered π husers hitems]
  refine mapM_renumbered π hlength hok fun x c score _ hscore => ?_
  exact (classScore_renumbered π hterms c x.1 x.2).trans hscore

end Scores

section Exact

variable {K : Type} [ExactScalar K] (π : Equiv.Perm (Fin n))

/-- The largest score is the maximum. -/
theorem Scalar.foldl_larger_eq (xs : List K) :
    xs.foldl larger (xs.head?.getD 0) = xs.max?.getD 0 := by
  have hmax : (larger : K → K → K) = max := funext₂ larger_eq_max
  cases xs with
  | nil => rfl
  | cons x xs =>
    rw [hmax, List.max?_cons', List.head?_cons, Option.getD_some, List.foldl_cons, max_self]
    rfl

theorem Scalar.max?_perm {xs ys : List K} (h : xs.Perm ys) : xs.max? = ys.max? := by
  cases hx : xs.max? with
  | none =>
    rw [List.max?_eq_none_iff] at hx
    subst hx
    rw [List.nil_perm.1 h]
    rfl
  | some top =>
    rw [List.max?_eq_some_iff] at hx
    refine (List.max?_eq_some_iff.2 ⟨h.mem_iff.1 hx.1, fun y hy => hx.2 y ?_⟩).symm
    exact h.mem_iff.2 hy

/-- Every class keeps its probability. -/
theorem Hypothesis.softmaxOf_renumbered (scores : List K) :
    softmaxOf (renumbered π scores) = renumbered π (softmaxOf scores) := by
  simp only [softmaxOf, Scalar.foldl_larger_eq, Scalar.max?_perm (perm_renumbered π scores),
    Scalar.total_eq_sum, map_renumbered, (perm_renumbered π _).sum_eq]

theorem Hypothesis.predict_renumbered {scores prediction : List K}
    (h : Hypothesis.softmax.predict scores = .ok prediction) :
    Hypothesis.softmax.predict (renumbered π scores) = .ok (renumbered π prediction) := by
  rw [predict] at h ⊢
  rw [length_renumbered]
  split at h
  · cases h
  · next hmany =>
    injection h with h
    rw [if_neg hmany, softmaxOf_renumbered, h]

end Exact

/-! ## Features -/

namespace Features

variable {α : Type} (π : Equiv.Perm (Fin n))

/-- The features of renumbered classes. -/
def renumbered : Features α → Features α
  | shared f => shared f
  | perClass fs => perClass (LatentFactors.renumbered π fs)

theorem perm_vectors_renumbered (features : Features α) :
    (features.renumbered π).vectors.Perm features.vectors := by
  cases features with
  | shared f => exact .refl _
  | perClass fs => exact perm_renumbered π fs

theorem forClasses_renumbered {features : Features α} {fs : Family α}
    (h : features.forClasses n = .ok fs) :
    (features.renumbered π).forClasses n = .ok (LatentFactors.renumbered π fs) := by
  cases features with
  | shared f =>
    injection h with h
    rw [← h, renumbered_replicate]
    rfl
  | perClass vectors =>
    rw [forClasses] at h
    rw [renumbered, forClasses, length_renumbered]
    split at h
    · cases h
    · next hcount =>
      injection h with h
      rw [if_neg hcount, h]

theorem walked_renumbered [Scalar α] (features : Features α) (kept : Option Int) :
    (features.renumbered π).walked kept = features.walked kept := by
  rw [walked, walked, Vec.supportUnion_perm (features.perm_vectors_renumbered π)]

end Features

/-! ## Steps -/

namespace Gradient

variable {K : Type} [ExactScalar K] {π : Equiv.Perm (Fin n)} {g : Gradient K} {i label : Nat}
  {y y' : Numeral K} {parameters new fs : Family K} {features : Features K}
  {prediction s : List K} {penalty : Setting K} {penalties : Penalties K} {kept : Option Int}

section Softmax

variable (hparameters : parameters.length = n) (hprediction : prediction.length = n)
  (hlabel : label < n) (hy : Outcome.whole y = .ok (label : Int))
  (hy' : Outcome.whole y' = .ok (renumber π label : Int))

include hparameters hprediction hlabel hy hy'

private theorem softmaxSteps_renumbered_aux (hfeatures : fs.length = n)
    (h : g.softmaxSteps i y parameters fs prediction penalty = .ok s) :
    g.softmaxSteps i y' (renumbered π parameters) (renumbered π fs) (renumbered π prediction)
        penalty = .ok (renumbered π s) ∧ s.length = n := by
  have hzip : (fs.zip parameters).length = n := by
    rw [List.length_zip, hfeatures, hparameters, Nat.min_self]
  have hlt : label < prediction.length := hprediction.symm ▸ hlabel
  have hlt' : renumber π label < (renumbered π prediction).length := by
    rw [length_renumbered, hprediction]
    exact renumber_lt_iff.2 hlabel
  unfold softmaxSteps at h ⊢
  rw [length_renumbered, zip_renumbered π hfeatures hparameters]
  split at h
  · cases h
  · next hmany =>
    rw [labelIn_of_whole hy hlt, Outcome.bind_ok] at h
    rw [if_neg hmany, labelIn_of_whole hy' hlt', Outcome.bind_ok]
    obtain ⟨directions, hdirections, h⟩ := Outcome.bind_eq_ok.1 h
    obtain ⟨rate, hrate, h⟩ := Outcome.bind_eq_ok.1 h
    injection h with h
    subst h
    rw [mapM_renumbered π hzip hdirections fun x c d _ hd => ?_, Outcome.bind_ok, hrate,
      Outcome.bind_ok, map_renumbered]
    · refine ⟨rfl, ?_⟩
      rw [List.length_map, Outcome.length_of_mapM hdirections, List.length_zipIdx, hzip]
    · -- The class of the new number is the one that is observed, and has its probability.
      dsimp only at hd ⊢
      rw [nth_renumbered π hprediction]
      simp only [renumber_inj]
      exact hd

/-- Every class keeps its step. -/
theorem steps_renumbered (hrule : g.rule = .softmax)
    (h : g.steps i y parameters features prediction penalty = .ok s) :
    g.steps i y' (renumbered π parameters) (features.renumbered π) (renumbered π prediction)
        penalty = .ok (renumbered π s) ∧ s.length = n := by
  rw [steps, hrule] at h ⊢
  obtain ⟨fs, hfs, h⟩ := Outcome.bind_eq_ok.1 h
  rw [hparameters] at hfs
  rw [length_renumbered, hparameters, Features.forClasses_renumbered π hfs, Outcome.bind_ok]
  exact softmaxSteps_renumbered_aux hparameters hprediction hlabel hy hy'
    (Features.length_of_forClasses hfs) h

end Softmax

/-! ## Updates -/

theorem writeSteps_renumbered (π : Equiv.Perm (Fin n)) {old acc next : Family K}
    (hsteps : s.length = n) (hold : old.length = n) (hacc : acc.length = n)
    (h : writeSteps i s old acc = .ok next) :
    writeSteps i (renumbered π s) (renumbered π old) (renumbered π acc) =
        .ok (renumbered π next) ∧ next.length = n := by
  have hzip : (old.zip acc).length = n := by
    rw [List.length_zip, hold, hacc, Nat.min_self]
  rw [writeSteps] at h ⊢
  rw [zip_renumbered π hold hacc, mapM_renumbered π hzip h fun x c w _ hw => ?_]
  · refine ⟨rfl, ?_⟩
    rw [Outcome.length_of_mapM h, List.length_zipIdx, hzip]
  · dsimp only at hw ⊢
    rw [nth_renumbered π hsteps]
    exact hw

/-- The update of a renumbered family is the renumbered update. -/
theorem updateFamily_renumbered (hrule : g.rule = .softmax) (hparameters : parameters.length = n)
    (hprediction : prediction.length = n) (hlabel : label < n)
    (hy : Outcome.whole y = .ok (label : Int))
    (hy' : Outcome.whole y' = .ok (renumber π label : Int))
    (h : g.updateFamily parameters features y prediction penalties kept = .ok new) :
    g.updateFamily (renumbered π parameters) (features.renumbered π) y' (renumbered π prediction)
      penalties kept = .ok (renumbered π new) := by
  obtain ⟨hsizes, hlistable, hwalk⟩ := updateFamily_eq_ok h
  have hvectors := features.perm_vectors_renumbered π
  have hne : (features.renumbered π).vectors ≠ [] := fun hnil =>
    features_ne_nil h (List.nil_perm.1 (hnil ▸ hvectors))
  have hsizes' : ∀ p ∈ renumbered π parameters, ∀ f ∈ (features.renumbered π).vectors,
      p.size = f.size := fun p hp f hf =>
    hsizes p (mem_renumbered.1 hp) f (hvectors.mem_iff.1 hf)
  rw [updateFamily_eq_walk hsizes' hne fun f hf => hlistable f (hvectors.mem_iff.1 hf),
    features.walked_renumbered π]
  refine (Outcome.foldlM_follow (P := fun acc : Family K => acc.length = n) hparameters
    (fun acc next i hacc hnext => ?_) hwalk).1
  obtain ⟨s, hs, hwrite⟩ := Outcome.bind_eq_ok.1 hnext
  obtain ⟨hs', hlength⟩ := steps_renumbered hparameters hprediction hlabel hy hy' hrule hs
  rw [hs', Outcome.bind_ok]
  exact writeSteps_renumbered π hlength hparameters hacc hwrite

end Gradient

end LatentFactors
