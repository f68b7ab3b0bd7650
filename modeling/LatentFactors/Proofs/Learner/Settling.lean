import LatentFactors.Proofs.Arithmetic.Rational
import LatentFactors.Proofs.Config
import LatentFactors.Proofs.Learner.Locality

/-!
# Thresholds without ordered classes

A learner without ordered classes has thresholds that it does not use, one zero
between each two classes.  Its steps for them are zeros, but clamping does not look at
the hypothesis: an accepted rating settles the thresholds like those of ordered
classes, and from then on they stay where they are (`Learner.cuts_after`).

Up to two classes have at most one threshold, which is never clamped.  With more
classes the thresholds stay zeros exactly as long as nothing is learned or clamping is
off (`unordered_thresholds_settle`).
-/

namespace LatentFactors

/-- What the arithmetic makes of unused thresholds: nothing happens to zero if zero is
added, and zero is raised to the smallest increment, which stays. -/
class ClampLaws (α : Type) [Scalar α] : Prop where
  zero_add_zero : (0 : α) + 0 = 0
  larger_zero : Scalar.larger 0 (Gradient.minIncrement : α) = Gradient.minIncrement
  minIncrement_add_zero : (Gradient.minIncrement : α) + 0 = Gradient.minIncrement
  larger_minIncrement :
    Scalar.larger (Gradient.minIncrement : α) Gradient.minIncrement = Gradient.minIncrement
  minIncrement_ne_zero : (Gradient.minIncrement : α) ≠ 0

/-- Floating-point numbers clamp in this way. -/
instance : ClampLaws Float where
  zero_add_zero := by decide
  larger_zero := by decide +kernel
  minIncrement_add_zero := by decide +kernel
  larger_minIncrement := by decide +kernel
  minIncrement_ne_zero := by decide +kernel

/-- Exact numbers clamp in this way. -/
instance {K : Type} [ExactScalar K] : ClampLaws K where
  zero_add_zero := add_zero 0
  larger_zero := (Scalar.larger_eq_max _ _).trans (max_eq_right Gradient.minIncrement_pos.le)
  minIncrement_add_zero := add_zero _
  larger_minIncrement := (Scalar.larger_eq_max _ _).trans (max_self _)
  minIncrement_ne_zero := Gradient.minIncrement_pos.ne'

variable {α : Type} [Scalar α]

/-! ## Settling zeros -/

namespace Gradient

variable [ClampLaws α]

theorem settle_zeros (clamped : Bool) (n : Nat) :
    settle clamped (List.replicate n (0 : α)) =
      if clamped then clamp (List.replicate n 0) else List.replicate n 0 := by
  simp only [settle, List.length_replicate, List.zipWith_replicate', ClampLaws.zero_add_zero]

/-- Clamping raises every zero but the first. -/
theorem clamp_zeros (n : Nat) :
    clamp (List.replicate (n + 1) (0 : α)) = 0 :: List.replicate n minIncrement := by
  rw [List.replicate_succ, clamp, List.map_replicate, ClampLaws.larger_zero]

/-- Thresholds that have settled stay where they are. -/
theorem settle_settle_zeros (clamped : Bool) (n : Nat) :
    settle clamped (settle clamped (List.replicate n (0 : α))) =
      settle clamped (List.replicate n 0) := by
  cases clamped with
  | false => rw [settle_zeros, if_neg Bool.false_ne_true, settle_zeros, if_neg Bool.false_ne_true]
  | true =>
    rw [settle_zeros, if_pos rfl]
    cases n with
    | zero => rfl
    | succ n =>
      rw [clamp_zeros, settle, if_pos rfl]
      simp only [List.length_cons, List.length_replicate, List.replicate_succ,
        List.zipWith_cons_cons, List.zipWith_replicate', ClampLaws.zero_add_zero,
        ClampLaws.minIncrement_add_zero, clamp, List.map_replicate, ClampLaws.larger_minIncrement]

/-- Zeros are settled thresholds only if there is at most one, or without clamping. -/
theorem settle_zeros_eq_iff (clamped : Bool) (n : Nat) :
    settle clamped (List.replicate n (0 : α)) = List.replicate n 0 ↔ n ≤ 1 ∨ clamped = false := by
  rw [settle_zeros]
  cases clamped with
  | false => simp
  | true =>
    rw [if_pos rfl]
    rcases n with _ | _ | n
    · simp [clamp]
    · rw [clamp_zeros]
      simp
    · rw [clamp_zeros]
      simp [List.replicate_succ, ClampLaws.minIncrement_ne_zero]

end Gradient

/-! ## Runs -/

namespace Learner

variable {l : Learner α}

/-- Whether an action is a rating that is learned. -/
def takes (l : Learner α) : Action α → Store α → Bool
  | .train user item y, s => ((l.train user item y).run s).1.isOk
  | .touchUser _, _ | .touchItem _, _ | .setSide _ _, _ | .removePair _ _, _ | .predict _ _, _
  | .predictFull _ _, _ => false

/-- Whether a run has a rating that is learned. -/
def accepts (l : Learner α) : List (Action α) → Store α → Bool
  | [], _ => false
  | action :: later, s => l.takes action s || l.accepts later ((l.perform action).run s).2

/-- An action settles the thresholds if it is a rating that is learned, and leaves them
otherwise. -/
theorem cuts_perform (h : l.Unordered) (action : Action α) (s : Store α) :
    ((l.perform action).run s).2.cuts =
      if l.takes action s then Gradient.settle l.clampCuts.isOn s.cuts else s.cuts := by
  cases action with
  | train user item y =>
    rw [takes, perform, cuts_train h]
    cases ((l.train user item y).run s).1 <;> rfl
  | touchUser user => exact (Store.touch_moves .userFactors user s).cuts
  | touchItem item => exact (Store.touch_moves .itemFactors item s).cuts
  | setSide key v =>
    show ((Store.setSide key v).run s).2.cuts = s.cuts
    rw [Store.run_setSide]
    split <;> rfl
  | removePair user item => rfl
  | predict user item =>
    show ((l.predict user item >>= fun _ => pure ()).run s).2.cuts = s.cuts
    rw [Stateful.snd_run_bind_pure]
    exact (l.predict_moves user item s).cuts
  | predictFull user item =>
    show ((l.predictFull user item >>= fun _ => pure ()).run s).2.cuts = s.cuts
    rw [Stateful.snd_run_bind_pure]
    exact (l.predictFull_moves user item s).cuts

/-- A run settles the thresholds if a rating is learned, and leaves them otherwise.
They settle once: thresholds are asked for that have settled after one rating. -/
theorem cuts_after (h : l.Unordered) {s : Store α}
    (hsettled : Gradient.settle l.clampCuts.isOn (Gradient.settle l.clampCuts.isOn s.cuts) =
      Gradient.settle l.clampCuts.isOn s.cuts) (actions : List (Action α)) :
    (l.after actions s).cuts =
      if l.accepts actions s then Gradient.settle l.clampCuts.isOn s.cuts else s.cuts := by
  induction actions generalizing s with
  | nil => rfl
  | cons action later ih =>
    have hcuts := cuts_perform h action s
    rw [after_cons, accepts]
    cases htakes : l.takes action s with
    | false =>
      rw [htakes, if_neg Bool.false_ne_true] at hcuts
      rw [ih (by rw [hcuts, hsettled]), hcuts, Bool.false_or]
    | true =>
      rw [htakes, if_pos rfl] at hcuts
      rw [ih (by rw [hcuts, hsettled, hsettled]), hcuts, hsettled, ite_self, Bool.true_or,
        if_pos rfl]

end Learner

/-! ## Configurations -/

/-- A recommender of a configuration without ordered classes, after any run of its
learner.  It is made with zeros for thresholds, one between each two classes.

The thresholds are still zeros after the run exactly if there is at most one of them,
which is so unless the hypothesis is for three or more unordered classes, if clamping is
off, or if no rating of the run was learned.  In all other cases every threshold but
the first one has been raised to the smallest increment. -/
theorem unordered_thresholds_settle [ClampLaws α] {c : LearnerConfig α} {draws : Draws α}
    {r : Recommender α} (hr : c.recommender draws = .ok r)
    (hkind : r.learner.hypothesis ≠ .ordinal) (actions : List (Action α)) :
    let n := (r.store.shape.classCount - 1).toNat
    let cuts := (r.learner.after actions r.store).cuts
    r.store.cuts = List.replicate n 0 ∧
    (r.learner.hypothesis ≠ .softmax → n ≤ 1) ∧
    (cuts = List.replicate n 0 ↔ n ≤ 1 ∨ r.learner.clampCuts.isOn = false ∨
      r.learner.accepts actions r.store = false) ∧
    (1 < n → r.learner.clampCuts.isOn = true → r.learner.accepts actions r.store = true →
      cuts = 0 :: List.replicate (n - 1) Gradient.minIncrement) := by
  obtain ⟨kind, shape, hresolve, hshape, hlearner, hstore, -⟩ := LearnerConfig.recommender_eq_ok hr
  have hkind' : kind ≠ .ordinal := by rwa [hlearner] at hkind
  have hunordered : r.learner.Unordered := by
    rw [hlearner]
    exact ⟨rfl, hkind'⟩
  intro n cuts
  have hzeros : r.store.cuts = List.replicate n 0 := by
    have hordinal : shape.ordinal = false := by
      rw [(LearnerConfig.shape_eq_ok hshape).2.1]
      exact decide_eq_false hkind'
    have hcount : n = shape.cutCount := by
      show (r.store.shape.classCount - 1).toNat = _
      rw [hstore]
      rfl
    rw [hstore, hcount]
    show (Store.initialCuts shape draws).1 = _
    rw [Store.initialCuts, hordinal]
  have hcuts : cuts = if r.learner.accepts actions r.store then
      Gradient.settle r.learner.clampCuts.isOn (List.replicate n 0) else List.replicate n 0 := by
    rw [← hzeros]
    refine Learner.cuts_after hunordered ?_ actions
    rw [hzeros, Gradient.settle_settle_zeros]
  refine ⟨hzeros, fun hsoftmax => ?_, ?_, fun hmany hclamped haccepts => ?_⟩
  · rw [hlearner] at hsoftmax
    have hfew := LearnerConfig.classCount_le_two hresolve hshape hsoftmax hkind'
    show (r.store.shape.classCount - 1).toNat ≤ 1
    rw [hstore]
    show (shape.classCount - 1).toNat ≤ 1
    omega
  · rw [hcuts]
    cases r.learner.accepts actions r.store with
    | false => simp
    | true => simpa using Gradient.settle_zeros_eq_iff r.learner.clampCuts.isOn n
  · obtain ⟨m, hm⟩ := Nat.exists_eq_add_of_lt hmany
    rw [hcuts, haccepts, if_pos rfl, hclamped, Gradient.settle_zeros, if_pos rfl, hm,
      Gradient.clamp_zeros, Nat.add_sub_cancel]

/-- Three unordered classes, with one rating learned and one refused. -/
theorem unordered_thresholds_settle_rational :
    let c : LearnerConfig ℚ :=
      (LearnerConfig.default.set .classes (.ofInt 3)).set .factorSize (.ofInt 0)
    let actions : List (Action ℚ) :=
      [.train (.int 1) (.int 7) (.integer 2), .train (.int 1) (.int 8) (.integer 3)]
    ∃ r, c.recommender (.ofSource fun _ => 0) = .ok r ∧ r.learner.hypothesis ≠ .ordinal ∧
      r.store.cuts = [0, 0] ∧
      (r.learner.after actions r.store).cuts = [0, Gradient.minIncrement] := by
  intro c actions
  obtain ⟨r, hr, hkind, hcount, hclamped, haccepts⟩ : ∃ r,
      c.recommender (.ofSource fun _ => 0) = .ok r ∧ r.learner.hypothesis ≠ .ordinal ∧
        (r.store.shape.classCount - 1).toNat = 2 ∧ r.learner.clampCuts.isOn = true ∧
        r.learner.accepts actions r.store = true :=
    ⟨_, rfl, by decide, by decide, rfl, by decide +kernel⟩
  obtain ⟨hzeros, -, -, hraised⟩ := unordered_thresholds_settle hr hkind actions
  rw [hcount] at hzeros hraised
  exact ⟨r, hr, hkind, hzeros, hraised (by decide) hclamped haccepts⟩

/-- The second threshold of three unordered classes does not stay zero when a rating is
learned, although nothing depends on it. -/
theorem softmax_thresholds_are_raised :
    let c : LearnerConfig ℚ :=
      (LearnerConfig.default.set .classes (.ofInt 3)).set .factorSize (.ofInt 0)
    ∃ r, c.recommender (.ofSource fun _ => 1 / 2) = .ok r ∧ r.learner.hypothesis = .softmax ∧
      r.store.cuts = [0, 0] ∧
      (r.learner.after [.train (.text "u") (.text "i") (.integer 1)] r.store).cuts =
        [0, 1 / 1000000] :=
  ⟨_, rfl, by decide, by decide +kernel, by decide +kernel⟩

end LatentFactors
