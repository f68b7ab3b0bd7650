import Mathlib.Order.Defs.Unbundled
import LatentFactors.Proofs.Outcome

/-!
# Operations with a state

Stores and recommenders are states of operations that may fail.  A run of such
an operation gives an outcome and the state after it, also when it fails.

Chains of operations are taken apart by `Stateful.run_bind`, and those that
succeed by `Stateful.run_bind_eq_ok`.  Ways of following a chain step by step are
built on that:

* `Stateful.Moves R m`: every run of `m` goes along the relation `R` between the
  state before and the state after.
* `Stateful.Fails P m`: if a run of `m` fails, then with a fault that has the
  property `P`.
* `Stateful.Couples R Q m m'`: from states related by `R`, two operations give
  results related by `Q` and leave related states, or they fail with the same
  fault.
* `Stateful.Follows R Q m m'`: the same for runs of `m` that succeed.  This is
  what is left if `m` does more than `m'`, and may fail there.
-/

namespace LatentFactors

/-- An operation with a state.  What it changed before it failed is kept. -/
abbrev Stateful (σ α : Type) := ExceptT (Fault α) (StateM σ)

/-- Two outcomes with related results or with the same fault. -/
inductive Outcome.Agree {α β γ : Type} (Q : β → γ → Prop) : Outcome α β → Outcome α γ → Prop where
  | ok {b : β} {c : γ} (h : Q b c) : Agree Q (.ok b) (.ok c)
  | error (e : Fault α) : Agree Q (.error e) (.error e)

namespace Outcome.Agree

variable {α β γ δ ε : Type} {Q P : β → γ → Prop}

theorem of_eq {r r' : Outcome α β} (h : r' = r) : Agree Eq r r' := by
  subst h
  cases r' with
  | ok b => exact .ok rfl
  | error e => exact .error e

theorem eq {r r' : Outcome α β} (h : Agree Eq r r') : r' = r := by
  cases h with
  | ok h => rw [h]
  | error e => rfl

theorem imp (hQ : ∀ b c, Q b c → P b c) {r : Outcome α β} {r' : Outcome α γ} (h : Agree Q r r') :
    Agree P r r' := by
  cases h with
  | ok h => exact .ok (hQ _ _ h)
  | error e => exact .error e

theorem bind {T : δ → ε → Prop} {r : Outcome α β} {r' : Outcome α γ} {f : β → Outcome α δ}
    {f' : γ → Outcome α ε} (h : Agree Q r r') (hf : ∀ b c, Q b c → Agree T (f b) (f' c)) :
    Agree T (r >>= f) (r' >>= f') := by
  cases h with
  | ok h => exact hf _ _ h
  | error e => exact .error e

/-- Maps agree if they do at elements that belong together. -/
theorem mapM {f : δ → Outcome α β} {f' : ε → Outcome α γ} {xs : List δ} {ys : List ε}
    (h : List.Forall₂ (fun x y => Agree Q (f x) (f' y)) xs ys) :
    Agree (List.Forall₂ Q) (xs.mapM f) (ys.mapM f') := by
  induction h with
  | nil => exact .ok .nil
  | cons hxy _ ih =>
    rw [List.mapM_cons, List.mapM_cons]
    exact hxy.bind fun _ _ hfirst => ih.bind fun _ _ hrest => .ok (.cons hfirst hrest)

end Outcome.Agree

namespace Stateful

variable {σ τ α β γ δ ε : Type}

/-! ## Chains -/

theorem run_get (s : σ) : (get : Stateful σ α σ).run s = (.ok s, s) := rfl

/-- A chain goes on from where its first operation ends, unless that fails. -/
theorem run_bind (m : Stateful σ α β) (f : β → Stateful σ α γ) (s : σ) :
    (m >>= f).run s =
      match m.run s with
      | (.ok b, t) => (f b).run t
      | (.error e, t) => (.error e, t) := by
  show (ExceptT.bindCont f (m.run s).1) (m.run s).2 = _
  rcases m.run s with ⟨b | e, t⟩ <;> rfl

/-- A chain succeeds exactly when its first operation does and the rest does
from there. -/
theorem run_bind_eq_ok {m : Stateful σ α β} {f : β → Stateful σ α γ} {s u : σ} {c : γ} :
    (m >>= f).run s = (.ok c, u) ↔ ∃ b t, m.run s = (.ok b, t) ∧ (f b).run t = (.ok c, u) := by
  rw [run_bind]
  rcases m.run s with ⟨e | b, t⟩
  · constructor
    · intro h
      cases h
    · rintro ⟨b, t', h, -⟩
      cases h
  · constructor
    · intro h
      exact ⟨b, t, rfl, h⟩
    · rintro ⟨b', t', h, hrest⟩
      cases h
      exact hrest

theorem run_bind_of_ok {m : Stateful σ α β} {s t : σ} {b : β} (h : m.run s = (.ok b, t))
    (f : β → Stateful σ α γ) : (m >>= f).run s = (f b).run t := by
  rw [run_bind, h]

/-- The state does not depend on what is made of the result. -/
theorem snd_run_bind_pure (m : Stateful σ α β) (f : β → γ) (s : σ) :
    ((m >>= fun b => pure (f b)).run s).2 = (m.run s).2 := by
  rw [run_bind]
  rcases m.run s with ⟨e | b, t⟩ <;> rfl

/-- What is made of the result does not depend on the state. -/
theorem fst_run_bind_pure (m : Stateful σ α β) (f : β → γ) (s : σ) :
    ((m >>= fun b => pure (f b)).run s).1 = (do return f (← (m.run s).1)) := by
  rw [run_bind]
  rcases m.run s with ⟨b | e, t⟩ <;> rfl

/-- A loop is a map without results. -/
theorem forM_eq_mapM (f : β → Stateful σ α PUnit) (xs : List β) :
    xs.forM f = xs.mapM f >>= fun _ => pure ⟨⟩ := by
  induction xs with
  | nil =>
    rw [List.mapM_nil, pure_bind]
    rfl
  | cons x xs ih =>
    show (f x >>= fun _ => xs.forM f) = _
    rw [ih, List.mapM_cons, bind_assoc]
    refine bind_congr fun _ => ?_
    rw [bind_assoc]
    exact bind_congr fun _ => (pure_bind _ _).symm

/-- A map succeeds if every operation does from where an invariant holds, and
keeps it. -/
theorem exists_run_mapM {f : β → Stateful σ α γ} {I : σ → Prop} {xs : List β}
    (h : ∀ x ∈ xs, ∀ s, I s → ∃ y t, (f x).run s = (.ok y, t) ∧ I t) {s : σ} (hs : I s) :
    ∃ ys t, (xs.mapM f).run s = (.ok ys, t) ∧ I t := by
  induction xs generalizing s with
  | nil =>
    rw [List.mapM_nil]
    exact ⟨[], s, rfl, hs⟩
  | cons x xs ih =>
    obtain ⟨y, t, hrun, ht⟩ := h x List.mem_cons_self s hs
    obtain ⟨ys, u, hrest, hu⟩ := ih (fun z hz => h z (List.mem_cons_of_mem x hz)) ht
    refine ⟨y :: ys, u, ?_, hu⟩
    rw [List.mapM_cons, run_bind_of_ok hrun, run_bind_of_ok hrest]
    rfl

/-- A map gives the results that its operations give one by one, if they keep an
invariant. -/
theorem exists_run_mapM_of_forall₂ {f : β → Stateful σ α γ} {I : σ → Prop} {xs : List β}
    {ys : List γ}
    (h : List.Forall₂ (fun x y => ∀ s, I s → ∃ t, (f x).run s = (.ok y, t) ∧ I t) xs ys)
    {s : σ} (hs : I s) : ∃ t, (xs.mapM f).run s = (.ok ys, t) ∧ I t := by
  induction h generalizing s with
  | nil =>
    rw [List.mapM_nil]
    exact ⟨s, rfl, hs⟩
  | cons hxy _ ih =>
    obtain ⟨t, hrun, ht⟩ := hxy s hs
    obtain ⟨u, hrest, hu⟩ := ih ht
    refine ⟨u, ?_, hu⟩
    rw [List.mapM_cons, run_bind_of_ok hrun, run_bind_of_ok hrest]
    rfl

/-- A map has the outcome of operations without a state if its own operations have
theirs and keep an invariant. -/
theorem fst_run_mapM {f : β → Stateful σ α γ} {g : β → Outcome α γ} {I : σ → Prop} {xs : List β}
    (h : ∀ x ∈ xs, ∀ s, I s → ((f x).run s).1 = g x ∧ I ((f x).run s).2) {s : σ} (hs : I s) :
    ((xs.mapM f).run s).1 = xs.mapM g := by
  induction xs generalizing s with
  | nil =>
    rw [List.mapM_nil]
    rfl
  | cons x xs ih =>
    obtain ⟨hfirst, ht⟩ := h x List.mem_cons_self s hs
    have hrest := ih (fun z hz => h z (List.mem_cons_of_mem x hz)) ht
    rw [List.mapM_cons, List.mapM_cons, ← hfirst, ← hrest, run_bind]
    rcases (f x).run s with ⟨e | y, t⟩
    · rfl
    · dsimp only
      rw [run_bind]
      rcases (xs.mapM f).run t with ⟨e | ys, u⟩ <;> rfl

/-! ## Relations between before and after -/

/-- Every run of an operation, also one that fails, goes along a relation. -/
def Moves (R : σ → σ → Prop) (m : Stateful σ α β) : Prop := ∀ s, R s (m.run s).2

namespace Moves

variable {R : σ → σ → Prop}

theorem of_run {m : Stateful σ α β} {s t : σ} {r : Outcome α β} (h : Moves R m)
    (hrun : m.run s = (r, t)) : R s t := by
  have hs := h s
  rwa [hrun] at hs

variable [IsPreorder σ R]

theorem pure (b : β) : Moves R (pure b : Stateful σ α β) := fun s => refl_of R s

theorem get : Moves R (get : Stateful σ α σ) := fun s => refl_of R s

/-- An outcome that does not depend on the state leaves it. -/
theorem lift (r : Outcome α β) : Moves R (ExceptT.mk (Pure.pure r) : Stateful σ α β) :=
  fun s => refl_of R s

/-- A chain goes along a relation if its first operation does, and the rest
after everything that this may give. -/
theorem bind {m : Stateful σ α β} {f : β → Stateful σ α γ} (hm : Moves R m)
    (hf : ∀ s b t, m.run s = (.ok b, t) → Moves R (f b)) : Moves R (m >>= f) := by
  intro s
  rw [run_bind]
  rcases hrun : m.run s with ⟨e | b, t⟩
  · exact hm.of_run hrun
  · exact trans_of R (hm.of_run hrun) (hf s b t hrun t)

/-- A map goes along a relation if it does at every element. -/
theorem mapM {f : β → Stateful σ α γ} :
    ∀ {xs : List β}, (∀ x ∈ xs, Moves R (f x)) → Moves R (xs.mapM f)
  | [], _ => by
    rw [List.mapM_nil]
    exact .pure []
  | x :: xs, h => by
    rw [List.mapM_cons]
    refine .bind (h x List.mem_cons_self) fun _ _ _ _ => ?_
    refine .bind (mapM fun z hz => h z (List.mem_cons_of_mem x hz)) fun _ _ _ _ => ?_
    exact .pure _

theorem forM {f : β → Stateful σ α PUnit} {xs : List β} (h : ∀ x ∈ xs, Moves R (f x)) :
    Moves R (xs.forM f) := by
  rw [forM_eq_mapM]
  exact .bind (mapM h) fun _ _ _ _ => .pure _

/-- What holds of every result after its own operation, and is kept along the
relation, holds of all results at the end of a map. -/
theorem forall₂_of_run_mapM {f : β → Stateful σ α γ} {P : β → γ → σ → Prop}
    (hP : ∀ x s y t, (f x).run s = (.ok y, t) → P x y t)
    (hkept : ∀ x y s t, R s t → P x y s → P x y t) {xs : List β} {ys : List γ} {s t : σ}
    (hmoves : ∀ x ∈ xs, Moves R (f x)) (h : (xs.mapM f).run s = (.ok ys, t)) :
    List.Forall₂ (fun x y => P x y t) xs ys := by
  induction xs generalizing s ys with
  | nil =>
    rw [List.mapM_nil] at h
    cases h
    exact .nil
  | cons x xs ih =>
    rw [List.mapM_cons] at h
    obtain ⟨y, u, hy, h⟩ := run_bind_eq_ok.1 h
    obtain ⟨rest, u', hrest, h⟩ := run_bind_eq_ok.1 h
    cases h
    have htail : ∀ z ∈ xs, Moves R (f z) := fun z hz => hmoves z (List.mem_cons_of_mem x hz)
    have hlater : R u t := (Moves.mapM htail).of_run hrest
    exact .cons (hkept x y u t hlater (hP x s y u hy)) (ih htail hrest)

end Moves

/-! ## Failures -/

/-- Every failure of an operation has a property. -/
def Fails (P : Fault α → Prop) (m : Stateful σ α β) : Prop :=
  ∀ s e, (m.run s).1 = .error e → P e

namespace Fails

variable {P : Fault α → Prop}

theorem lift {r : Outcome α β} (h : ∀ e, r = .error e → P e) :
    Fails P (ExceptT.mk (Pure.pure r) : Stateful σ α β) :=
  fun _ e he => h e he

theorem pure (b : β) : Fails P (pure b : Stateful σ α β) := lift nofun

theorem get : Fails P (get : Stateful σ α σ) := nofun

theorem bind {m : Stateful σ α β} {f : β → Stateful σ α γ} (hm : Fails P m)
    (hf : ∀ b, Fails P (f b)) : Fails P (m >>= f) := by
  intro s e he
  rw [run_bind] at he
  rcases hrun : m.run s with ⟨e' | b, t⟩
  · rw [hrun] at he
    cases he
    exact hm s e (congrArg Prod.fst hrun)
  · rw [hrun] at he
    exact hf b t e he

theorem mapM {f : β → Stateful σ α γ} (h : ∀ x, Fails P (f x)) :
    ∀ xs : List β, Fails P (xs.mapM f)
  | [] => by
    rw [List.mapM_nil]
    exact .pure []
  | x :: xs => by
    rw [List.mapM_cons]
    exact .bind (h x) fun _ => .bind (mapM h xs) fun _ => .pure _

theorem forM {f : β → Stateful σ α PUnit} (h : ∀ x, Fails P (f x)) (xs : List β) :
    Fails P (xs.forM f) := by
  rw [forM_eq_mapM]
  exact .bind (mapM h xs) fun _ => .pure _

end Fails

/-! ## Two runs side by side -/

/-- From related states, two operations give related results and leave related
states, or they fail in the same way. -/
def Couples (R : σ → τ → Prop) (Q : β → γ → Prop) (m : Stateful σ α β) (m' : Stateful τ α γ) :
    Prop :=
  ∀ s s', R s s' → Outcome.Agree Q (m.run s).1 (m'.run s').1 ∧ R (m.run s).2 (m'.run s').2

namespace Couples

variable {R : σ → τ → Prop} {Q : β → γ → Prop} {P : δ → ε → Prop}

/-- Two runs that succeed, with related results and states. -/
theorem of_runs {m : Stateful σ α β} {m' : Stateful τ α γ} {s t : σ} {s' t' : τ} {b : β} {c : γ}
    (h : m.run s = (.ok b, t)) (h' : m'.run s' = (.ok c, t')) (hQ : Q b c) (hR : R t t') :
    Outcome.Agree Q (m.run s).1 (m'.run s').1 ∧ R (m.run s).2 (m'.run s').2 := by
  rw [h, h']
  exact ⟨.ok hQ, hR⟩

theorem pure {b : β} {c : γ} (h : Q b c) :
    Couples R Q (pure b : Stateful σ α β) (pure c : Stateful τ α γ) :=
  fun _ _ hs => ⟨.ok h, hs⟩

theorem get : Couples R R (get : Stateful σ α σ) (get : Stateful τ α τ) :=
  fun _ _ hs => ⟨.ok hs, hs⟩

theorem modify {f : σ → σ} {f' : τ → τ} (h : ∀ s s', R s s' → R (f s) (f' s')) :
    Couples R Eq (modify f : Stateful σ α PUnit) (modify f' : Stateful τ α PUnit) :=
  fun s s' hs => ⟨.ok rfl, h s s' hs⟩

theorem lift (r : Outcome α β) :
    Couples R (fun b c => c = b ∧ r = .ok b) (ExceptT.mk (Pure.pure r) : Stateful σ α β)
      (ExceptT.mk (Pure.pure r) : Stateful τ α β) := by
  intro s s' hs
  cases r with
  | ok b => exact ⟨.ok ⟨rfl, rfl⟩, hs⟩
  | error e => exact ⟨.error e, hs⟩

theorem lift_agree {r : Outcome α β} {r' : Outcome α γ} (h : Outcome.Agree Q r r') :
    Couples R Q (ExceptT.mk (Pure.pure r) : Stateful σ α β)
      (ExceptT.mk (Pure.pure r') : Stateful τ α γ) :=
  fun _ _ hs => ⟨h, hs⟩

theorem imp {P : β → γ → Prop} {m : Stateful σ α β} {m' : Stateful τ α γ} (h : Couples R Q m m')
    (hQ : ∀ b c, Q b c → P b c) : Couples R P m m' :=
  fun s s' hs => ⟨(h s s' hs).1.imp hQ, (h s s' hs).2⟩

/-- What one of the operations keeps, and what it gives where this holds, can be
used on its side. -/
theorem with_right {I : τ → Prop} {P : γ → Prop} {m : Stateful σ α β} {m' : Stateful τ α γ}
    (h : Couples R Q m m') (hI : ∀ s, I s → I (m'.run s).2)
    (hP : ∀ s c t, I s → m'.run s = (.ok c, t) → P c) :
    Couples (fun s s' => R s s' ∧ I s') (fun b c => Q b c ∧ P c) m m' := by
  rintro s s' ⟨hs, hs'⟩
  obtain ⟨hagree, hafter⟩ := h s s' hs
  refine ⟨?_, hafter, hI s' hs'⟩
  rcases hrun : m'.run s' with ⟨r, t⟩
  rw [hrun] at hagree
  generalize (m.run s).1 = outcome at hagree
  cases hagree with
  | ok hQ => exact .ok ⟨hQ, hP s' _ t hs' hrun⟩
  | error e => exact .error e

/-- Chains are coupled if their first operations are, and the rest from
whatever related results these give. -/
theorem bind {m : Stateful σ α β} {m' : Stateful τ α γ} {f : β → Stateful σ α δ}
    {f' : γ → Stateful τ α ε} (hm : Couples R Q m m')
    (hf : ∀ b c, Q b c → Couples R P (f b) (f' c)) : Couples R P (m >>= f) (m' >>= f') := by
  intro s s' hs
  obtain ⟨hagree, hafter⟩ := hm s s' hs
  rw [run_bind, run_bind]
  generalize m.run s = before at hagree hafter ⊢
  generalize m'.run s' = before' at hagree hafter ⊢
  obtain ⟨r, t⟩ := before
  obtain ⟨r', t'⟩ := before'
  cases hagree with
  | ok h => exact hf _ _ h t t' hafter
  | error e => exact ⟨.error e, hafter⟩

/-- What the first operation does on top of its result need not be coupled. -/
theorem map_left {m : Stateful σ α β} {m' : Stateful τ α γ} (h : Couples R Q m m') (f : β → δ) :
    Couples R (fun _ _ => True) (m >>= fun b => Pure.pure (f b)) m' := by
  intro s s' hs
  obtain ⟨hagree, hafter⟩ := h s s' hs
  rw [run_bind]
  generalize m.run s = before at hagree hafter ⊢
  generalize m'.run s' = before' at hagree hafter ⊢
  obtain ⟨r, t⟩ := before
  obtain ⟨r', t'⟩ := before'
  cases hagree with
  | ok _ => exact ⟨.ok trivial, hafter⟩
  | error e => exact ⟨.error e, hafter⟩

/-- Maps are coupled if their operations are at elements that belong together. -/
theorem mapM_forall₂ {f : β → Stateful σ α γ} {f' : δ → Stateful τ α ε} {Q : γ → ε → Prop}
    {xs : List β} {ys : List δ} (h : List.Forall₂ (fun x y => Couples R Q (f x) (f' y)) xs ys) :
    Couples R (List.Forall₂ Q) (xs.mapM f) (ys.mapM f') := by
  induction h with
  | nil =>
    rw [List.mapM_nil, List.mapM_nil]
    exact .pure .nil
  | cons hxy _ ih =>
    rw [List.mapM_cons, List.mapM_cons]
    exact .bind hxy fun _ _ hfirst => .bind ih fun _ _ hrest => .pure (.cons hfirst hrest)

theorem mapM {f : β → Stateful σ α γ} {f' : β → Stateful τ α γ} {xs : List β}
    (h : ∀ x ∈ xs, Couples R Eq (f x) (f' x)) : Couples R Eq (xs.mapM f) (xs.mapM f') := by
  have hmaps := mapM_forall₂ (List.forall₂_same.2 h)
  rwa [List.forall₂_eq_eq_eq] at hmaps

theorem forM {f : β → Stateful σ α PUnit} {f' : β → Stateful τ α PUnit} {xs : List β}
    (h : ∀ x ∈ xs, Couples R Eq (f x) (f' x)) : Couples R Eq (xs.forM f) (xs.forM f') := by
  rw [forM_eq_mapM, forM_eq_mapM]
  exact .bind (mapM h) fun _ _ _ => .pure rfl

end Couples

/-! ## Runs that succeed -/

/-- From related states, if the first operation succeeds then so does the second
one, with a related result and a related state after it. -/
def Follows (R : σ → σ → Prop) (Q : β → γ → Prop) (m : Stateful σ α β) (m' : Stateful σ α γ) :
    Prop :=
  ∀ s s' b t, R s s' → m.run s = (.ok b, t) →
    ∃ c t', m'.run s' = (.ok c, t') ∧ Q b c ∧ R t t'

namespace Follows

variable {R : σ → σ → Prop} {Q : β → γ → Prop} {P : δ → ε → Prop}

theorem of_couples {m : Stateful σ α β} {m' : Stateful σ α γ} (h : Couples R Q m m') :
    Follows R Q m m' := by
  intro s s' b t hs hrun
  obtain ⟨hagree, hafter⟩ := h s s' hs
  rcases hrun' : m'.run s' with ⟨r', t'⟩
  rw [hrun, hrun'] at hagree hafter
  cases hagree with
  | ok hQ => exact ⟨_, t', rfl, hQ, hafter⟩

theorem bind {m : Stateful σ α β} {m' : Stateful σ α γ} {f : β → Stateful σ α δ}
    {f' : γ → Stateful σ α ε} (hm : Follows R Q m m')
    (hf : ∀ b c, Q b c → Follows R P (f b) (f' c)) : Follows R P (m >>= f) (m' >>= f') := by
  intro s s' d u hs hrun
  obtain ⟨b, t, hb, hrun⟩ := run_bind_eq_ok.1 hrun
  obtain ⟨c, t', hc, hQ, ht⟩ := hm s s' b t hs hb
  obtain ⟨e, u', he, hP, hu⟩ := hf b c hQ t t' d u ht hrun
  exact ⟨e, u', run_bind_eq_ok.2 ⟨c, t', hc, he⟩, hP, hu⟩

/-- What the first operation does on top, going along a relation that the second
state does not see, need not be followed. -/
theorem extend {S : σ → σ → Prop} {m : Stateful σ α β} {m' : Stateful σ α γ}
    {f : β → Stateful σ α δ} (hm : Follows R Q m m') (hf : ∀ b, Moves S (f b))
    (hS : ∀ s t s', S s t → R s s' → R t s') : Follows R (fun _ _ => True) (m >>= f) m' := by
  intro s s' d u hs hrun
  obtain ⟨b, t, hb, hrun⟩ := run_bind_eq_ok.1 hrun
  obtain ⟨c, t', hc, -, ht⟩ := hm s s' b t hs hb
  exact ⟨c, t', hc, trivial, hS t u t' ((hf b).of_run hrun) ht⟩

theorem map_right {m : Stateful σ α β} {m' : Stateful σ α γ} (h : Follows R Q m m') (f : γ → δ) :
    Follows R (fun _ _ => True) m (m' >>= fun c => pure (f c)) := by
  intro s s' b t hs hrun
  obtain ⟨c, t', hc, -, ht⟩ := h s s' b t hs hrun
  exact ⟨f c, t', run_bind_eq_ok.2 ⟨c, t', hc, rfl⟩, trivial, ht⟩

/-- A map is followed by another one if each of its operations is. -/
theorem mapM {f : β → Stateful σ α γ} {f' : β → Stateful σ α δ} :
    ∀ {xs : List β}, (∀ x ∈ xs, Follows R (fun _ _ => True) (f x) (f' x)) →
      Follows R (fun _ _ => True) (xs.mapM f) (xs.mapM f')
  | [], _ => by
    rw [List.mapM_nil, List.mapM_nil]
    exact .of_couples (.pure trivial)
  | x :: xs, h => by
    rw [List.mapM_cons, List.mapM_cons]
    refine .bind (h x List.mem_cons_self) fun _ _ _ => ?_
    refine .bind (mapM fun z hz => h z (List.mem_cons_of_mem x hz)) fun _ _ _ => ?_
    exact .of_couples (.pure trivial)

end Follows

/-! ## Runs that are repeated -/

/-- Where an operation is run again: where it has ended, or, if it succeeded, wherever
the state has got to along a relation. -/
def Again (R : σ → σ → Prop) (r : Outcome α β) (t u : σ) : Prop :=
  u = t ∨ (∃ b, r = .ok b) ∧ R t u

theorem Again.eq_of_error {R : σ → σ → Prop} {e : Fault α} {t u : σ}
    (h : Again R (.error e : Outcome α β) t u) : u = t := by
  refine h.resolve_right ?_
  rintro ⟨⟨b, hok⟩, -⟩
  cases hok

theorem Again.along {R : σ → σ → Prop} [IsPreorder σ R] {r : Outcome α β} {t u : σ}
    (h : Again R r t u) : R t u := by
  rcases h with rfl | ⟨-, h⟩
  · exact refl_of R u
  · exact h

/-- Run again, an operation gives the same and changes nothing.  It starts where an
invariant holds. -/
def Settles (I : σ → Prop) (R : σ → σ → Prop) (m : Stateful σ α β) : Prop :=
  ∀ s r t u, I s → m.run s = (r, t) → Again R r t u → m.run u = (r, u)

namespace Settles

variable {I : σ → Prop} {R : σ → σ → Prop}

/-- What neither reads nor changes the state can be repeated. -/
theorem lift (r : Outcome α β) : Settles I R (ExceptT.mk (Pure.pure r) : Stateful σ α β) := by
  rintro s _ _ u - h -
  cases h
  rfl

theorem pure (b : β) : Settles I R (pure b : Stateful σ α β) := lift (.ok b)

variable [IsPreorder σ R]

/-- A chain can be repeated if its operations can, and the rest does not leave the
relation along which the first one can be. -/
theorem bind {m : Stateful σ α β} {f : β → Stateful σ α γ} (hI : ∀ s t, R s t → I s → I t)
    (hm : Settles I R m) (hmoves : Moves R m)
    (hf : ∀ s b t, m.run s = (.ok b, t) → Settles I R (f b))
    (hrest : ∀ s b t, m.run s = (.ok b, t) → Moves R (f b)) : Settles I R (m >>= f) := by
  intro s r t u hs hrun hu
  rcases hfirst : m.run s with ⟨e | b, s₁⟩
  · rw [run_bind, hfirst] at hrun
    cases hrun
    obtain rfl : u = t := hu.eq_of_error
    rw [run_bind, hm s _ u u hs hfirst (.inl rfl)]
  · rw [run_bind_of_ok hfirst] at hrun
    have hlater : R s₁ u := trans_of R ((hrest s b s₁ hfirst).of_run hrun) hu.along
    rw [run_bind_of_ok (hm s _ s₁ u hs hfirst (.inr ⟨⟨b, rfl⟩, hlater⟩))]
    exact hf s b s₁ hfirst s₁ r t u (hI s s₁ (hmoves.of_run hfirst) hs) hrun hu

/-- A loop can be repeated if its operations can. -/
theorem forM {f : β → Stateful σ α PUnit} (hI : ∀ s t, R s t → I s → I t) :
    ∀ {xs : List β}, (∀ x ∈ xs, Settles I R (f x)) → (∀ x ∈ xs, Moves R (f x)) →
      Settles I R (xs.forM f)
  | [], _, _ => pure _
  | x :: xs, h, hmoves => by
    have htail : ∀ z ∈ xs, Moves R (f z) := fun z hz => hmoves z (List.mem_cons_of_mem x hz)
    show Settles I R (f x >>= fun _ => xs.forM f)
    refine bind hI (h x List.mem_cons_self) (hmoves x List.mem_cons_self) (fun _ _ _ _ => ?_)
      fun _ _ _ _ => .forM htail
    exact forM hI (fun z hz => h z (List.mem_cons_of_mem x hz)) htail

end Settles

end Stateful

end LatentFactors
