import LatentFactors.Proofs.Store.Shape
import LatentFactors.Proofs.Hypothesis.Scores

/-!
# How many scores and predictions there are

Where a shape admits a hypothesis, every link finds the scores that it needs,
and a prediction has the count that `Shape.predictionCount` gives.

* `Hypothesis.exists_linearCombination`: families that fit together have
  scores, if their entries can be listed.  Otherwise they are too large
  (`Hypothesis.fault_of_linearCombination`).  There is one score for each vector
  or one for each threshold (`Hypothesis.length_of_linearCombination`).
* `Hypothesis.exists_predict` and `Hypothesis.exists_predictFull`: so many
  scores have a prediction, and the whole distribution has one entry for each
  class.
-/

namespace LatentFactors

variable {α : Type} [Scalar α]

@[simp] theorem Scalar.length_runningFrom (acc : α) (xs : List α) :
    (runningFrom acc xs).length = xs.length := by
  induction xs generalizing acc with
  | nil => rfl
  | cons x xs ih => rw [runningFrom, List.length_cons, ih, List.length_cons]

@[simp] theorem Scalar.length_running (xs : List α) : (running xs).length = xs.length := by
  cases xs with
  | nil => rfl
  | cons x xs => rw [running, List.length_cons, length_runningFrom, List.length_cons]

namespace Hypothesis

/-! ## Scores -/

theorem exists_classScore {c : Nat} {user item : Vec α} {terms : List (Family α × Vec α)}
    (hfactors : user.HasProduct item)
    (hterms : ∀ term ∈ terms, ∃ p, term.1[c]? = some p ∧ p.HasProduct term.2) :
    ∃ score, classScore c user item terms = .ok score := by
  obtain ⟨start, hstart⟩ := Vec.exists_dot_iff.2 hfactors
  obtain ⟨score, hscore, -⟩ : ∃ score, terms.foldlM (fun score term => do
      return score + (← (← Outcome.nth term.1 c).dot term.2)) start = Except.ok score ∧ True := by
    refine Outcome.foldlM_ok (P := fun _ => True) trivial fun acc _ term hterm => ?_
    obtain ⟨p, hp, hpterm⟩ := hterms term hterm
    obtain ⟨product, hproduct⟩ := Vec.exists_dot_iff.2 hpterm
    refine ⟨acc + product, ?_, trivial⟩
    rw [Outcome.nth_eq_ok_iff.2 hp, Outcome.bind_ok, hproduct]
    rfl
  refine ⟨score, ?_⟩
  rw [classScore, hstart]
  exact hscore

/-- There is a score for each vector, or one for each threshold. -/
theorem length_of_linearCombination {h : Hypothesis} {shape : Shape α} {cuts scores : List α}
    {users items : Family α} {terms : List (Family α × Vec α)}
    (hcuts : cuts.length = shape.cutCount) (husers : users.length = shape.vectorCount)
    (hitems : items.length = shape.vectorCount)
    (hscores : h.linearCombination cuts users items terms = .ok scores) :
    scores.length = shape.scoreCount h := by
  cases h with
  | ordinal =>
    obtain ⟨user, -, hscores⟩ := Outcome.bind_eq_ok.1 hscores
    obtain ⟨item, -, hscores⟩ := Outcome.bind_eq_ok.1 hscores
    obtain ⟨score, -, hscores⟩ := Outcome.bind_eq_ok.1 hscores
    injection hscores with hscores
    rw [← hscores, List.length_map, Scalar.length_running, hcuts]
    rfl
  | ols | logistic | softmax | poisson =>
    rw [linearCombination_of_classes (by simp) (husers.trans hitems.symm)] at hscores
    rw [Outcome.length_of_mapM hscores, List.length_zipIdx, List.length_zip, husers, hitems,
      Nat.min_self]
    rfl

/-- Families that fit together have scores. -/
theorem exists_linearCombination (h : Hypothesis) {shape : Shape α} (cuts : List α)
    {users items : Family α} {terms : List (Family α × Vec α)}
    (husers : users.length = shape.vectorCount) (hitems : items.length = shape.vectorCount)
    (hfactors : ∀ v ∈ users, ∀ w ∈ items, v.HasProduct w)
    (hterms : ∀ term ∈ terms, term.1.length = shape.vectorCount ∧
      ∀ p ∈ term.1, p.HasProduct term.2) :
    ∃ scores, h.linearCombination cuts users items terms = .ok scores := by
  have hscore {c : Nat} {v w : Vec α} (hv : users[c]? = some v) (hw : items[c]? = some w) :
      ∃ score, classScore c v w terms = .ok score := by
    refine exists_classScore (hfactors v (List.mem_of_getElem? hv) w (List.mem_of_getElem? hw)) ?_
    intro term hterm
    obtain ⟨hlength, hproducts⟩ := hterms term hterm
    obtain ⟨hc, -⟩ := List.getElem?_eq_some_iff.1 hv
    have hlt : c < term.1.length := by omega
    exact ⟨term.1[c], List.getElem?_eq_getElem hlt, hproducts _ (List.getElem_mem hlt)⟩
  cases h with
  | ordinal =>
    have hpos := shape.vectorCount_pos
    have hu : 0 < users.length := by omega
    have hi : 0 < items.length := by omega
    obtain ⟨score, hok⟩ := hscore (List.getElem?_eq_getElem hu) (List.getElem?_eq_getElem hi)
    refine ⟨(Scalar.running cuts).map (· - score), ?_⟩
    rw [linearCombination, Outcome.nth_of_lt hu, Outcome.bind_ok, Outcome.nth_of_lt hi,
      Outcome.bind_ok, hok]
    rfl
  | ols | logistic | softmax | poisson =>
    rw [linearCombination_of_classes (by simp) (husers.trans hitems.symm)]
    refine Outcome.exists_mapM_ok fun e hmem => ?_
    obtain ⟨hv, hw⟩ := List.getElem?_zip_eq_some.1 (List.mem_zipIdx_iff_getElem?.1 hmem)
    exact hscore hv hw

/-- Vectors of one size fail to have a score only where they are too large. -/
theorem fault_of_classScore {c : Nat} {user item : Vec α} {terms : List (Family α × Vec α)}
    (hsize : user.size = item.size)
    (hterms : ∀ term ∈ terms, ∃ p, term.1[c]? = some p ∧ p.size = term.2.size) {e : Fault α}
    (h : classScore c user item terms = .error e) : e = .tooLarge := by
  rcases Outcome.bind_eq_error.1 h with h | ⟨start, -, h⟩
  · exact Vec.fault_of_dot hsize h
  · obtain ⟨score, term, hterm, h⟩ := Outcome.exists_of_foldlM_eq_error h
    obtain ⟨p, hp, hpsize⟩ := hterms term hterm
    rw [Outcome.nth_eq_ok_iff.2 hp, Outcome.bind_ok, Outcome.bind_eq_error] at h
    rcases h with h | ⟨product, -, h⟩
    · exact Vec.fault_of_dot hpsize h
    · cases h

/-- Families that fit together fail to have scores only where they are too large. -/
theorem fault_of_linearCombination {h : Hypothesis} {shape : Shape α} {cuts : List α}
    {users items : Family α} {terms : List (Family α × Vec α)}
    (husers : users.length = shape.vectorCount) (hitems : items.length = shape.vectorCount)
    (hfactors : ∀ v ∈ users, ∀ w ∈ items, v.size = w.size)
    (hterms : ∀ term ∈ terms, term.1.length = shape.vectorCount ∧
      ∀ p ∈ term.1, p.size = term.2.size) {e : Fault α}
    (hfails : h.linearCombination cuts users items terms = .error e) : e = .tooLarge := by
  have hscore {c : Nat} {v w : Vec α} (hv : users[c]? = some v) (hw : items[c]? = some w)
      (hfails : classScore c v w terms = .error e) : e = .tooLarge := by
    refine fault_of_classScore
      (hfactors v (List.mem_of_getElem? hv) w (List.mem_of_getElem? hw)) ?_ hfails
    intro term hterm
    obtain ⟨hlength, hsizes⟩ := hterms term hterm
    obtain ⟨hc, -⟩ := List.getElem?_eq_some_iff.1 hv
    have hlt : c < term.1.length := by omega
    exact ⟨term.1[c], List.getElem?_eq_getElem hlt, hsizes _ (List.getElem_mem hlt)⟩
  cases h with
  | ordinal =>
    have hpos := shape.vectorCount_pos
    have hu : 0 < users.length := by omega
    have hi : 0 < items.length := by omega
    rw [linearCombination, Outcome.nth_of_lt hu, Outcome.bind_ok, Outcome.nth_of_lt hi,
      Outcome.bind_ok, Outcome.bind_eq_error] at hfails
    rcases hfails with hfails | ⟨score, -, hfails⟩
    · exact hscore (List.getElem?_eq_getElem hu) (List.getElem?_eq_getElem hi) hfails
    · cases hfails
  | ols | logistic | softmax | poisson =>
    rw [linearCombination_of_classes (by simp) (husers.trans hitems.symm)] at hfails
    obtain ⟨x, hx, hfails⟩ := Outcome.exists_of_mapM_eq_error hfails
    obtain ⟨hv, hw⟩ := List.getElem?_zip_eq_some.1 (List.mem_zipIdx_iff_getElem?.1 hx)
    exact hscore hv hw hfails

/-! ## Predictions -/

@[simp] theorem length_softmaxOf (scores : List α) :
    (softmaxOf scores).length = scores.length := by
  simp [softmaxOf]

@[simp] theorem length_classProbabilities (cumulative : List α) :
    (classProbabilities cumulative).length = cumulative.length + 1 := by
  simp [classProbabilities]

/-- Scores of the right number have a prediction. -/
theorem exists_predict {h : Hypothesis} {shape : Shape α} (hadmits : shape.Admits h)
    {scores : List α} (hscores : scores.length = shape.scoreCount h) :
    ∃ prediction, h.predict scores = .ok prediction ∧
      prediction.length = shape.predictionCount h := by
  cases h with
  | ols =>
    obtain ⟨-, hcount⟩ := hadmits
    refine ⟨scores, rfl, ?_⟩
    rw [hscores]
    exact Shape.vectorCount_eq_one (by omega)
  | logistic =>
    have hpos : 0 < scores.length := by
      rw [hscores]
      exact shape.vectorCount_pos
    refine ⟨[Scalar.expit scores[0]], ?_, rfl⟩
    rw [predict, Outcome.nth_of_lt hpos]
    rfl
  | softmax =>
    obtain ⟨hordinal, hcount⟩ := hadmits
    have hlength : scores.length = shape.classCount.toNat :=
      hscores.trans (Shape.vectorCount_eq_toNat hordinal hcount)
    refine ⟨softmaxOf scores, ?_, ?_⟩
    · rw [predict, if_neg (by omega)]
    · rw [length_softmaxOf]
      exact hlength
  | ordinal =>
    obtain ⟨-, hcount⟩ := hadmits
    refine ⟨_, rfl, ?_⟩
    rw [length_classProbabilities, List.length_map, hscores]
    show (shape.classCount - 1).toNat + 1 = shape.classCount.toNat
    omega
  | poisson =>
    have hpos : 0 < scores.length := by
      rw [hscores]
      exact shape.vectorCount_pos
    refine ⟨[Scalar.exp scores[0]], ?_, rfl⟩
    rw [predict, Outcome.nth_of_lt hpos]
    rfl

/-- The whole distribution has one entry for each class. -/
theorem exists_predictFull {h : Hypothesis} {shape : Shape α} (hadmits : shape.Admits h)
    {scores : List α} (hscores : scores.length = shape.scoreCount h) :
    ∃ distribution, h.predictFull scores = .ok distribution ∧
      (distribution.length : Int) = shape.classCount := by
  obtain ⟨prediction, hprediction, hlength⟩ := exists_predict hadmits hscores
  cases h with
  | logistic =>
    have hpos : 0 < scores.length := by
      rw [hscores]
      exact shape.vectorCount_pos
    refine ⟨[(1 : α) - Scalar.expit scores[0], Scalar.expit scores[0]], ?_, hadmits.2.symm⟩
    rw [predictFull, Outcome.nth_of_lt hpos]
    rfl
  | ols | poisson =>
    refine ⟨prediction, hprediction, ?_⟩
    rw [hlength, hadmits.2]
    rfl
  | softmax | ordinal =>
    refine ⟨prediction, hprediction, ?_⟩
    have hcount := hadmits.2
    rw [hlength]
    show (shape.classCount.toNat : Int) = shape.classCount
    omega

end Hypothesis

end LatentFactors
