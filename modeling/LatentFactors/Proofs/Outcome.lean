import Mathlib.Data.List.Forall2
import LatentFactors.Fault

/-!
# Chains of operations that may fail

What it means that a chain of operations succeeds.  `Outcome.bind_eq_ok` takes
one operation off the front of a chain.  A map over a list succeeds exactly
when it succeeds at every element (`Outcome.mapM_eq_ok_iff`), and a fold
succeeds when its steps do and keep an invariant (`Outcome.foldlM_ok`).
-/

namespace LatentFactors.Outcome

variable {α β γ δ : Type}

/-- A chain succeeds exactly when its first operation does and the rest does
from there. -/
theorem bind_eq_ok {m : Outcome α β} {f : β → Outcome α γ} {c : γ} :
    m >>= f = .ok c ↔ ∃ b, m = .ok b ∧ f b = .ok c := by
  cases m with
  | ok b =>
    show f b = .ok c ↔ _
    simp
  | error e =>
    show (.error e : Outcome α γ) = .ok c ↔ _
    simp

/-- A chain fails exactly when its first operation does or the rest does from there. -/
theorem bind_eq_error {m : Outcome α β} {f : β → Outcome α γ} {e : Fault α} :
    m >>= f = .error e ↔ m = .error e ∨ ∃ b, m = .ok b ∧ f b = .error e := by
  cases m with
  | ok b =>
    show f b = .error e ↔ _
    simp
  | error e =>
    show (.error e : Outcome α γ) = .error _ ↔ _
    simp

/-- A chain can succeed if its first operation can, and the rest can from
whatever it gives. -/
theorem exists_bind {m : Outcome α β} {f : β → Outcome α γ} {P : γ → Prop}
    (hm : ∃ b, m = .ok b) (hf : ∀ b, m = .ok b → ∃ c, f b = .ok c ∧ P c) :
    ∃ c, m >>= f = .ok c ∧ P c := by
  obtain ⟨b, hb⟩ := hm
  obtain ⟨c, hc, hP⟩ := hf b hb
  exact ⟨c, bind_eq_ok.2 ⟨b, hb, hc⟩, hP⟩

theorem bind_ok (b : β) (f : β → Outcome α γ) : (Except.ok b : Outcome α β) >>= f = f b := rfl

theorem bind_error (e : Fault α) (f : β → Outcome α γ) :
    (Except.error e : Outcome α β) >>= f = .error e := rfl

theorem map_bind (m : Outcome α β) (f : β → Outcome α γ) (g : γ → δ) :
    (m >>= f).map g = m >>= fun b => (f b).map g := by
  cases m <;> rfl

theorem pure_eq_ok (b : β) : (pure b : Outcome α β) = .ok b := rfl

/-- Whether there is a result with a property can be computed. -/
instance {m : Outcome α β} {P : β → Prop} [DecidablePred P] : Decidable (∃ b, m = .ok b ∧ P b) :=
  match m with
  | .ok b => decidable_of_iff (P b) ⟨fun h => ⟨b, rfl, h⟩, fun ⟨_, hb, h⟩ => by cases hb; exact h⟩
  | .error _ => .isFalse fun ⟨_, hb, _⟩ => by cases hb

/-! ## Maps -/

/-- A map succeeds exactly when its results belong to its elements one by one. -/
theorem mapM_eq_ok_iff {f : β → Outcome α γ} {xs : List β} {ys : List γ} :
    xs.mapM f = .ok ys ↔ List.Forall₂ (fun x y => f x = .ok y) xs ys := by
  induction xs generalizing ys with
  | nil =>
    rw [List.mapM_nil, pure_eq_ok, Except.ok.injEq, List.forall₂_nil_left_iff]
    exact eq_comm
  | cons x xs ih =>
    rw [List.mapM_cons, bind_eq_ok, List.forall₂_cons_left_iff]
    constructor
    · rintro ⟨y, hy, h⟩
      obtain ⟨rest, hrest, h⟩ := bind_eq_ok.1 h
      injection h with h
      exact ⟨y, rest, hy, ih.1 hrest, h.symm⟩
    · rintro ⟨y, rest, hy, hrest, rfl⟩
      refine ⟨y, hy, bind_eq_ok.2 ⟨rest, ih.2 hrest, rfl⟩⟩

theorem exists_mapM_ok {f : β → Outcome α γ} {xs : List β}
    (h : ∀ x ∈ xs, ∃ y, f x = .ok y) : ∃ ys, xs.mapM f = .ok ys := by
  induction xs with
  | nil => exact ⟨[], rfl⟩
  | cons x xs ih =>
    obtain ⟨y, hy⟩ := h x List.mem_cons_self
    obtain ⟨ys, hys⟩ := ih fun z hz => h z (List.mem_cons_of_mem x hz)
    exact ⟨y :: ys, mapM_eq_ok_iff.2 (.cons hy (mapM_eq_ok_iff.1 hys))⟩

/-- Maps are the same if they are at elements that belong together. -/
theorem mapM_eq_mapM {f : β → Outcome α δ} {f' : γ → Outcome α δ} {xs : List β} {ys : List γ}
    (h : List.Forall₂ (fun x y => f x = f' y) xs ys) : xs.mapM f = ys.mapM f' := by
  induction h with
  | nil => rfl
  | cons hxy _ ih => rw [List.mapM_cons, List.mapM_cons, hxy, ih]

/-- A map that fails does so at one of its elements. -/
theorem exists_of_mapM_eq_error {f : β → Outcome α γ} {xs : List β} {e : Fault α}
    (h : xs.mapM f = .error e) : ∃ x ∈ xs, f x = .error e := by
  induction xs with
  | nil => cases h
  | cons x xs ih =>
    rw [List.mapM_cons, bind_eq_error] at h
    rcases h with h | ⟨y, -, h⟩
    · exact ⟨x, List.mem_cons_self, h⟩
    · rcases bind_eq_error.1 h with h | ⟨ys, -, h⟩
      · obtain ⟨x', hx', hfails⟩ := ih h
        exact ⟨x', List.mem_cons_of_mem x hx', hfails⟩
      · cases h

theorem mapM_congr {f f' : β → Outcome α γ} {xs : List β} (h : ∀ x ∈ xs, f x = f' x) :
    xs.mapM f = xs.mapM f' :=
  mapM_eq_mapM (List.forall₂_same.2 h)

/-- A map over images has the results of a map over the elements if every image
has the result of its element. -/
theorem mapM_map_eq_ok {f : β → Outcome α δ} {f' : γ → Outcome α δ} {g : β → γ} {xs : List β}
    {ys : List δ} (h : xs.mapM f = .ok ys) (hg : ∀ x ∈ xs, ∀ y, f x = .ok y → f' (g x) = .ok y) :
    (xs.map g).mapM f' = .ok ys := by
  rw [mapM_eq_ok_iff] at h ⊢
  rw [List.forall₂_map_left_iff]
  induction h with
  | nil => exact .nil
  | cons hxy _ ih =>
    exact .cons (hg _ List.mem_cons_self _ hxy) (ih fun x hx => hg x (List.mem_cons_of_mem _ hx))

/-- What is made of every result of a map can be made of them all at the end. -/
theorem mapM_bind_pure (f : β → Outcome α γ) (g : γ → δ) (xs : List β) :
    (xs.mapM fun x => do return g (← f x)) = (do return (← xs.mapM f).map g) := by
  induction xs with
  | nil => rfl
  | cons x xs ih => simp only [List.mapM_cons, ih, bind_assoc, pure_bind, List.map_cons]

/-- A map over lists one after the other goes through each of them. -/
theorem mapM_flatMap (f : β → List γ) (g : γ → Outcome α δ) (xs : List β) :
    (xs.flatMap f).mapM g = (do return (← xs.mapM fun x => (f x).mapM g).flatten) := by
  induction xs with
  | nil => rfl
  | cons x xs ih =>
    simp only [List.flatMap_cons, List.mapM_append, List.mapM_cons, ih, bind_assoc, pure_bind,
      List.flatten_cons]

/-- A map that does not look at the places goes through the list itself. -/
theorem mapM_zipIdx (f : β → Outcome α γ) (xs : List β) :
    (xs.zipIdx.mapM fun e => f e.1) = xs.mapM f := by
  have hmap : (xs.zipIdx.map Prod.fst).mapM f = xs.zipIdx.mapM fun e => f e.1 := List.mapM_map
  rw [← hmap, List.zipIdx_map_fst]

theorem length_of_mapM {f : β → Outcome α γ} {xs : List β} {ys : List γ}
    (h : xs.mapM f = .ok ys) : ys.length = xs.length :=
  (mapM_eq_ok_iff.1 h).length_eq.symm

/-- What can be told of every element from its result can be told of them all. -/
theorem map_eq_of_mapM {f : β → Outcome α γ} {g : γ → δ} {p : β → δ} {xs : List β} {ys : List γ}
    (h : xs.mapM f = .ok ys) (hg : ∀ x y, f x = .ok y → g y = p x) : ys.map g = xs.map p := by
  have heq : List.Forall₂ Eq (xs.map p) (ys.map g) := by
    rw [List.forall₂_map_left_iff, List.forall₂_map_right_iff]
    exact (mapM_eq_ok_iff.1 h).imp fun x y hxy => (hg x y hxy).symm
  rw [List.forall₂_eq_eq_eq] at heq
  exact heq.symm

/-- The elements of a map can be read off its results. -/
theorem map_of_mapM {f : β → Outcome α γ} {g : γ → β} {xs : List β} {ys : List γ}
    (h : xs.mapM f = .ok ys) (hg : ∀ x y, f x = .ok y → g y = x) : ys.map g = xs := by
  rw [map_eq_of_mapM (p := id) h hg, List.map_id]

theorem exists_right_of_getElem? {R : β → γ → Prop} {xs : List β} {ys : List γ}
    (h : List.Forall₂ R xs ys) {i : Nat} {x : β} (hx : xs[i]? = some x) :
    ∃ y, ys[i]? = some y ∧ R x y := by
  induction h generalizing i with
  | nil => simp at hx
  | cons hxy _ ih =>
    cases i with
    | zero =>
      cases hx
      exact ⟨_, rfl, hxy⟩
    | succ i => exact ih hx

theorem exists_left_of_getElem? {R : β → γ → Prop} {xs : List β} {ys : List γ}
    (h : List.Forall₂ R xs ys) {i : Nat} {y : γ} (hy : ys[i]? = some y) :
    ∃ x, xs[i]? = some x ∧ R x y := by
  have hflip : List.Forall₂ (flip R) ys xs := .flip h
  exact exists_right_of_getElem? hflip hy

theorem getElem?_of_mapM {f : β → Outcome α γ} {xs : List β} {ys : List γ} {i : Nat} {x : β}
    (h : xs.mapM f = .ok ys) (hx : xs[i]? = some x) : ∃ y, ys[i]? = some y ∧ f x = .ok y :=
  exists_right_of_getElem? (mapM_eq_ok_iff.1 h) hx

theorem exists_of_getElem?_mapM {f : β → Outcome α γ} {xs : List β} {ys : List γ} {i : Nat} {y : γ}
    (h : xs.mapM f = .ok ys) (hy : ys[i]? = some y) : ∃ x, xs[i]? = some x ∧ f x = .ok y :=
  exists_left_of_getElem? (mapM_eq_ok_iff.1 h) hy

/-- A property of the results of single elements is one of all results. -/
theorem forall_of_mapM {f : β → Outcome α γ} {P : γ → Prop} {xs : List β} {ys : List γ}
    (h : xs.mapM f = .ok ys) (hP : ∀ x ∈ xs, ∀ y, f x = .ok y → P y) : ∀ y ∈ ys, P y := by
  rw [mapM_eq_ok_iff] at h
  induction h with
  | nil => simp
  | cons hxy _ ih =>
    intro y hy
    rcases List.mem_cons.1 hy with rfl | hy
    · exact hP _ List.mem_cons_self _ hxy
    · exact ih (fun x hx => hP x (List.mem_cons_of_mem _ hx)) y hy

/-- Two maps over one list give results that belong together if they do at every
element. -/
theorem forall₂_of_mapM {f : β → Outcome α γ} {f' : β → Outcome α δ} {R : γ → δ → Prop}
    {xs : List β} {ys : List γ} {zs : List δ} (h : xs.mapM f = .ok ys) (h' : xs.mapM f' = .ok zs)
    (hR : ∀ x ∈ xs, ∀ y z, f x = .ok y → f' x = .ok z → R y z) : List.Forall₂ R ys zs := by
  rw [mapM_eq_ok_iff] at h h'
  induction h generalizing zs with
  | nil =>
    cases h'
    exact .nil
  | cons hxy _ ih =>
    cases h' with
    | cons hxz hrest =>
      refine .cons (hR _ List.mem_cons_self _ _ hxy hxz) ?_
      exact ih hrest fun x hx => hR x (List.mem_cons_of_mem _ hx)

theorem exists_left_of_forall₂ {R : β → γ → Prop} {xs : List β} {ys : List γ}
    (h : List.Forall₂ R xs ys) {y : γ} (hy : y ∈ ys) : ∃ x ∈ xs, R x y := by
  induction h with
  | nil => cases hy
  | cons hxy _ ih =>
    rcases List.mem_cons.1 hy with rfl | hy
    · exact ⟨_, List.mem_cons_self, hxy⟩
    · obtain ⟨x, hx, hR⟩ := ih hy
      exact ⟨x, List.mem_cons_of_mem _ hx, hR⟩

theorem exists_right_of_forall₂ {R : β → γ → Prop} {xs : List β} {ys : List γ}
    (h : List.Forall₂ R xs ys) {x : β} (hx : x ∈ xs) : ∃ y ∈ ys, R x y := by
  have hflip : List.Forall₂ (flip R) ys xs := .flip h
  exact exists_left_of_forall₂ hflip hx

/-- Every element of a list that is mapped has its result among the results. -/
theorem exists_of_mem_mapM {f : β → Outcome α γ} {xs : List β} {ys : List γ} {x : β}
    (h : xs.mapM f = .ok ys) (hx : x ∈ xs) : ∃ y ∈ ys, f x = .ok y :=
  exists_right_of_forall₂ (mapM_eq_ok_iff.1 h) hx

/-- A map has results exactly when there is one for every element. -/
theorem exists_mapM_ok_iff {f : β → Outcome α γ} {xs : List β} :
    (∃ ys, xs.mapM f = .ok ys) ↔ ∀ x ∈ xs, ∃ y, f x = .ok y := by
  refine ⟨?_, exists_mapM_ok⟩
  rintro ⟨ys, h⟩ x hx
  obtain ⟨y, -, hy⟩ := exists_of_mem_mapM h hx
  exact ⟨y, hy⟩

/-! ## Folds -/

/-- A fold succeeds if every step does from where the invariant holds, and
keeps it. -/
theorem foldlM_ok {f : γ → β → Outcome α γ} {P : γ → Prop} {xs : List β} {a : γ} (ha : P a)
    (hstep : ∀ c, P c → ∀ x ∈ xs, ∃ d, f c x = .ok d ∧ P d) :
    ∃ b, xs.foldlM f a = .ok b ∧ P b := by
  induction xs generalizing a with
  | nil => exact ⟨a, rfl, ha⟩
  | cons x xs ih =>
    obtain ⟨c, hc, hP⟩ := hstep a ha x List.mem_cons_self
    obtain ⟨b, hb, hPb⟩ := ih hP fun d hd y hy => hstep d hd y (List.mem_cons_of_mem x hy)
    refine ⟨b, ?_, hPb⟩
    rw [List.foldlM_cons, hc, bind_ok]
    exact hb

/-- A fold that fails does so at one of its elements. -/
theorem exists_of_foldlM_eq_error {f : γ → β → Outcome α γ} {xs : List β} {a : γ} {e : Fault α}
    (h : xs.foldlM f a = .error e) : ∃ c, ∃ x ∈ xs, f c x = .error e := by
  induction xs generalizing a with
  | nil => cases h
  | cons x xs ih =>
    rw [List.foldlM_cons, bind_eq_error] at h
    rcases h with h | ⟨c, -, h⟩
    · exact ⟨a, x, List.mem_cons_self, h⟩
    · obtain ⟨d, x', hx', hfails⟩ := ih h
      exact ⟨d, x', List.mem_cons_of_mem x hx', hfails⟩

/-- A fold that succeeds can be followed by another one, if its steps can from where the
invariant holds. -/
theorem foldlM_follow {f : γ → β → Outcome α γ} {f' : δ → β → Outcome α δ} {r : γ → δ}
    {P : γ → Prop} {xs : List β} {a b : γ} (ha : P a)
    (hstep : ∀ c d x, P c → f c x = .ok d → f' (r c) x = .ok (r d) ∧ P d)
    (h : xs.foldlM f a = .ok b) : xs.foldlM f' (r a) = .ok (r b) ∧ P b := by
  induction xs generalizing a with
  | nil =>
    injection h with h
    subst h
    exact ⟨rfl, ha⟩
  | cons x xs ih =>
    rw [List.foldlM_cons] at h
    obtain ⟨c, hc, hrest⟩ := bind_eq_ok.1 h
    obtain ⟨hfollow, hP⟩ := hstep a c x ha hc
    rw [List.foldlM_cons, hfollow, bind_ok]
    exact ih hP hrest

/-- Folds are the same if their steps are at elements that belong together. -/
theorem foldlM_eq_foldlM {f : γ → β → Outcome α γ} {f' : γ → δ → Outcome α γ} {xs : List β}
    {ys : List δ} (h : List.Forall₂ (fun x y => ∀ c, f c x = f' c y) xs ys) (a : γ) :
    xs.foldlM f a = ys.foldlM f' a := by
  induction h generalizing a with
  | nil => rfl
  | cons hxy _ ih =>
    rw [List.foldlM_cons, List.foldlM_cons, hxy]
    exact bind_congr ih

/-- If two steps can change places, then all steps of a fold can be taken in any
order. -/
theorem foldlM_perm {f : γ → β → Outcome α γ} {xs ys : List β} {a b : γ} (h : xs.Perm ys)
    (hcomm : ∀ c x y d, (f c x >>= fun c' => f c' y) = .ok d → (f c y >>= fun c' => f c' x) = .ok d)
    (hfold : xs.foldlM f a = .ok b) : ys.foldlM f a = .ok b := by
  induction h generalizing a with
  | nil => exact hfold
  | cons x _ ih =>
    rw [List.foldlM_cons] at hfold ⊢
    obtain ⟨c, hc, hrest⟩ := bind_eq_ok.1 hfold
    exact bind_eq_ok.2 ⟨c, hc, ih hrest⟩
  | swap x y rest =>
    simp only [List.foldlM_cons, ← bind_assoc] at hfold ⊢
    obtain ⟨c, hc, hrest⟩ := bind_eq_ok.1 hfold
    exact bind_eq_ok.2 ⟨c, hcomm a y x c hc, hrest⟩
  | trans _ _ ih ih' => exact ih' (ih hfold)

/-! ## Elements of lists -/

theorem nth_eq_ok_iff {xs : List β} {i : Nat} {x : β} :
    (nth xs i : Outcome α β) = .ok x ↔ xs[i]? = some x := by
  rw [nth]
  split
  · next y hy => simp [hy]
  · next hnone => simp [hnone]

theorem nth_of_lt {xs : List β} {i : Nat} (h : i < xs.length) :
    (nth xs i : Outcome α β) = .ok xs[i] :=
  nth_eq_ok_iff.2 (List.getElem?_eq_getElem h)

theorem exists_nth_iff {xs : List β} {i : Nat} :
    (∃ x, (nth xs i : Outcome α β) = .ok x) ↔ i < xs.length := by
  refine ⟨?_, fun h => ⟨_, nth_of_lt h⟩⟩
  rintro ⟨x, hx⟩
  exact (List.getElem?_eq_some_iff.1 (nth_eq_ok_iff.1 hx)).1

end LatentFactors.Outcome
