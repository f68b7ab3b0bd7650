import LatentFactors.Proofs.Arithmetic
import LatentFactors.Proofs.Hypothesis.Counts
import LatentFactors.Proofs.Gradient.ClosedForm
import LatentFactors.Proofs.Learner.Sizes

/-!
# One score behind all links

Numbers, counts, two classes and ordered classes are predicted from one score of a
user and an item, the product of their first vectors with the products of the side
information added (`Gathered.rawScore`).

The last entry of a prediction is that score under a link of its own
(`Hypothesis.last_of_predictFull`).  Which link this is depends on the hypothesis, and
for ordered classes on the last threshold, from which the score is subtracted.  All
of these links rise strictly with the score (`Hypothesis.strictMono_link`): the signs
under the logistic function and in front of it cancel.
-/

namespace LatentFactors

variable {K : Type} [ExactScalar K]

/-! ## The raw score -/

/-- A sum that is added up on the way is the sum of what was added. -/
theorem Outcome.foldlM_add {β : Type} (f : β → Outcome K K) (xs : List β) (start : K) :
    xs.foldlM (fun acc x => do return acc + (← f x)) start =
      (do return start + (← xs.mapM f).sum) := by
  induction xs generalizing start with
  | nil =>
    show Except.ok start = Except.ok (start + 0)
    rw [add_zero]
  | cons x xs ih =>
    simp only [List.foldlM_cons, List.mapM_cons, ih, bind_assoc, pure_bind, List.sum_cons,
      add_assoc]

/-- The score of a class is the product of its vectors plus all products of its
parameters. -/
theorem Hypothesis.classScore_eq (c : Nat) (user item : Vec K) (terms : List (Family K × Vec K)) :
    classScore c user item terms = (do
      let factors ← user.dot item
      let sides ← terms.mapM fun term => do (← Outcome.nth term.1 c).dot term.2
      return factors + sides.sum) := by
  rw [classScore]
  refine bind_congr fun factors => ?_
  rw [← Outcome.foldlM_add]
  simp only [bind_assoc]

/-- The product of the first user and item vectors, plus the products of the first
parameter vectors with the side information that they apply to. -/
def Gathered.rawScore (g : Gathered K) : Outcome K K := do
  let factors ← (← Outcome.nth g.users 0).dot (← Outcome.nth g.items 0)
  let sides ← g.terms.mapM fun t => do (← Outcome.nth t.parameters 0).dot t.feature
  return factors + sides.sum

/-- The raw score of a user and an item. -/
def Learner.rawScore (l : Learner K) (user item : Id) : StoreM K K := do
  Store.lift (← l.gather user item).rawScore

theorem Gathered.rawScore_eq (g : Gathered K) :
    g.rawScore = (do
      Hypothesis.classScore 0 (← Outcome.nth g.users 0) (← Outcome.nth g.items 0)
        (g.terms.map fun t => (t.parameters, t.feature))) := by
  simp only [Gathered.rawScore, Hypothesis.classScore_eq, List.mapM_map, Function.comp_def]

/-! ## Links -/

/-- The last threshold is the sum of all increments. -/
theorem Scalar.getLast?_running {xs : List K} (hne : xs ≠ []) :
    (running xs).getLast? = some xs.sum := by
  have hpos := List.length_pos_iff.2 hne
  rw [List.getLast?_eq_getElem?, length_running, getElem?_running (by omega),
    Nat.sub_add_cancel hpos, List.take_length]

namespace Hypothesis

/-- What a hypothesis makes of a raw score: a number, a rate, or the probability of
the last class.  Unordered classes have no score in common. -/
def link (h : Hypothesis) (cuts : List K) (x : K) : K :=
  match h with
  | .ols | .softmax => x
  | .poisson => Scalar.exp x
  | .logistic => Scalar.expit x
  | .ordinal => 1 - Scalar.expit (cuts.sum - x)

/-- Links rise strictly.  Of ordered classes the score is subtracted, and so is what
the logistic function makes of it. -/
theorem strictMono_link (hexp : StrictMono (Scalar.exp : K → K))
    (hexpit : StrictMono (Scalar.expit : K → K)) (h : Hypothesis) (cuts : List K) :
    StrictMono (h.link cuts) := by
  cases h with
  | ols | softmax => exact strictMono_id
  | poisson => exact hexp
  | logistic => exact hexpit
  | ordinal =>
    intro x y hxy
    have hbelow : cuts.sum - y < cuts.sum - x := sub_lt_sub_left hxy cuts.sum
    exact sub_lt_sub_left (hexpit hbelow) 1

omit [ExactScalar K] in
theorem vectorCount_of_admits {shape : Shape K} {h : Hypothesis} (hadmits : shape.Admits h)
    (hkind : h ≠ .softmax) : shape.vectorCount = 1 := by
  cases h with
  | ols | poisson => exact Shape.vectorCount_eq_one (by rw [hadmits.2]; decide)
  | logistic => exact Shape.vectorCount_eq_one (by rw [hadmits.2])
  | softmax => exact absurd rfl hkind
  | ordinal => exact Shape.vectorCount_eq_one_of_ordinal hadmits.1

/-- The probability of the last class is what the last cumulative probability leaves
of one. -/
theorem getElem?_classProbabilities_last {cumulative : List K} {p : K}
    (h : cumulative.getLast? = some p) :
    (classProbabilities cumulative)[cumulative.length]? = some (1 - p) := by
  obtain ⟨before, rfl⟩ := List.getLast?_eq_some_iff.1 h
  have hprevious : (0 :: (before ++ [p]))[(before ++ [p]).length]? = some p := by
    simp
  rw [classProbabilities, List.getElem?_zipWith, List.getElem?_concat_length, hprevious]

/-- The last entry of a prediction from one score is that score under the link. -/
theorem last_of_predictFull {h : Hypothesis} {shape : Shape K} (hadmits : shape.Admits h)
    (hkind : h ≠ .softmax) {cuts : List K} (hcuts : cuts.length = shape.cutCount) (x : K) :
    ∃ distribution,
      h.predictFull (if h = .ordinal then (Scalar.running cuts).map (· - x) else [x]) =
        .ok distribution ∧
      (distribution.length : Int) = shape.classCount ∧
      distribution[distribution.length - 1]? = some (h.link cuts x) := by
  cases h with
  | ols => exact ⟨[x], rfl, hadmits.2.symm, rfl⟩
  | poisson => exact ⟨[Scalar.exp x], rfl, hadmits.2.symm, rfl⟩
  | logistic => exact ⟨[1 - Scalar.expit x, Scalar.expit x], rfl, hadmits.2.symm, rfl⟩
  | softmax => exact absurd rfl hkind
  | ordinal =>
    have hmany : 2 ≤ shape.classCount := hadmits.2
    rw [Shape.cutCount] at hcuts
    have hne : cuts ≠ [] := by
      rw [← List.length_pos_iff]
      omega
    have hcount := length_classProbabilities
      (((Scalar.running cuts).map (· - x)).map Scalar.expit)
    have hlast : (((Scalar.running cuts).map (· - x)).map Scalar.expit).getLast? =
        some (Scalar.expit (cuts.sum - x)) := by
      rw [List.getLast?_map, List.getLast?_map, Scalar.getLast?_running hne]
      rfl
    rw [if_pos rfl]
    refine ⟨_, rfl, ?_, ?_⟩
    · rw [hcount, List.length_map, List.length_map, Scalar.length_running]
      omega
    · rw [hcount, Nat.add_sub_cancel]
      exact getElem?_classProbabilities_last hlast

end Hypothesis

namespace Gathered

variable {g : Gathered K} {shape : Shape K} {l : Learner K}

/-- With one vector in every family, all scores come from the raw one. -/
theorem scores_eq (hfits : g.Fits shape) (hcount : shape.vectorCount = 1) :
    l.scores g = (do
      let x ← g.rawScore
      return if l.hypothesis = .ordinal then (Scalar.running g.cuts).map (· - x) else [x]) := by
  have husers := hfits.users
  have hitems := hfits.items
  rw [hcount] at husers hitems
  obtain ⟨v, hv⟩ := List.length_eq_one_iff.1 husers
  obtain ⟨w, hw⟩ := List.length_eq_one_iff.1 hitems
  have hfirst (u : Vec K) : (Outcome.nth [u] 0 : Outcome K (Vec K)) = .ok u := rfl
  rw [Learner.scores, rawScore_eq, hv, hw, hfirst, hfirst, Outcome.bind_ok, Outcome.bind_ok]
  by_cases hkind : l.hypothesis = .ordinal
  · simp only [hkind, if_true]
    rw [Hypothesis.linearCombination, hfirst, hfirst]
    rfl
  · have hone : [v].length = [w].length := rfl
    rw [Hypothesis.linearCombination_of_classes hkind hone]
    simp [hkind]

end Gathered

end LatentFactors
