import Mathlib.Data.List.FinRange
import LatentFactors.Proofs.Outcome

/-!
# Renumbered lists

A permutation of `n` classes gives the class at every place another number
(`renumber`).  A list with one element for each class is renumbered along with them
(`renumbered`): at the new place of a class stands what stood at the old one
(`getElem?_renumbered`), and nothing else is in the list (`perm_renumbered`).

Whatever is done to the elements one by one can be done before or after
(`map_renumbered`, `zip_renumbered`).  This holds too if it may fail and looks at the
places, as long as it looks at the new places afterwards (`mapM_renumbered`).
-/

namespace LatentFactors

variable {n : Nat} {α β γ : Type}

/-! ## Numbers -/

/-- The new number of a class.  Numbers that are no classes stay. -/
def renumber (π : Equiv.Perm (Fin n)) (c : Nat) : Nat :=
  if h : c < n then π ⟨c, h⟩ else c

theorem renumber_of_lt (π : Equiv.Perm (Fin n)) {c : Nat} (h : c < n) :
    renumber π c = π ⟨c, h⟩ := dif_pos h

theorem renumber_of_le (π : Equiv.Perm (Fin n)) {c : Nat} (h : n ≤ c) : renumber π c = c :=
  dif_neg (Nat.not_lt.2 h)

theorem renumber_lt_iff {π : Equiv.Perm (Fin n)} {c : Nat} : renumber π c < n ↔ c < n := by
  by_cases h : c < n
  · simp [renumber_of_lt π h, h]
  · rw [renumber_of_le π (Nat.le_of_not_lt h)]

@[simp] theorem renumber_symm_renumber (π : Equiv.Perm (Fin n)) (c : Nat) :
    renumber π.symm (renumber π c) = c := by
  by_cases h : c < n
  · rw [renumber_of_lt π h, renumber_of_lt π.symm (Fin.is_lt _), Fin.eta, π.symm_apply_apply]
  · have hle := Nat.le_of_not_lt h
    rw [renumber_of_le π hle, renumber_of_le π.symm hle]

@[simp] theorem renumber_renumber_symm (π : Equiv.Perm (Fin n)) (c : Nat) :
    renumber π (renumber π.symm c) = c :=
  renumber_symm_renumber π.symm c

theorem renumber_inj {π : Equiv.Perm (Fin n)} {c d : Nat} :
    renumber π c = renumber π d ↔ c = d :=
  ⟨fun h => by rw [← renumber_symm_renumber π c, h, renumber_symm_renumber], congrArg _⟩

/-! ## Lists -/

/-- The list with what belongs to a class at its new place.  A list that is not one of
all classes stays. -/
def renumbered (π : Equiv.Perm (Fin n)) (xs : List β) : List β :=
  if h : xs.length = n then List.ofFn fun c => xs.get ((π.symm c).cast h.symm) else xs

@[simp] theorem length_renumbered (π : Equiv.Perm (Fin n)) (xs : List β) :
    (renumbered π xs).length = xs.length := by
  rw [renumbered]
  split
  · next h => rw [List.length_ofFn, h]
  · rfl

theorem getElem?_renumbered_eq (π : Equiv.Perm (Fin n)) {xs : List β} (h : xs.length = n)
    (c : Nat) : (renumbered π xs)[c]? = xs[renumber π.symm c]? := by
  rw [renumbered, dif_pos h, List.getElem?_ofFn]
  split
  · next hc =>
    have hlt : renumber π.symm c < xs.length := by
      rw [h]
      exact renumber_lt_iff.2 hc
    rw [List.getElem?_eq_getElem hlt, List.get_eq_getElem]
    simp only [renumber_of_lt π.symm hc, Fin.val_cast]
  · next hc =>
    rw [renumber_of_le π.symm (Nat.le_of_not_lt hc), List.getElem?_eq_none (by omega)]

/-- At the new place of a class stands what stood at the old one. -/
theorem getElem?_renumbered (π : Equiv.Perm (Fin n)) {xs : List β} (h : xs.length = n)
    (c : Nat) : (renumbered π xs)[renumber π c]? = xs[c]? := by
  rw [getElem?_renumbered_eq π h, renumber_symm_renumber]

/-- That much describes the renumbered list. -/
theorem eq_renumbered {π : Equiv.Perm (Fin n)} {xs ys : List β} (hx : xs.length = n)
    (h : ∀ c, ys[renumber π c]? = xs[c]?) : ys = renumbered π xs := by
  refine List.ext_getElem? fun c => ?_
  rw [← renumber_renumber_symm π c, h, getElem?_renumbered π hx]

theorem renumbered_of_length_ne (π : Equiv.Perm (Fin n)) {xs : List β} (h : xs.length ≠ n) :
    renumbered π xs = xs := dif_neg h

@[simp] theorem renumbered_symm_renumbered (π : Equiv.Perm (Fin n)) (xs : List β) :
    renumbered π.symm (renumbered π xs) = xs := by
  by_cases h : xs.length = n
  · have hlength : (renumbered π xs).length = n := (length_renumbered π xs).trans h
    refine (eq_renumbered hlength fun c => ?_).symm
    rw [getElem?_renumbered_eq π h]
  · rw [renumbered_of_length_ne π h, renumbered_of_length_ne π.symm h]

/-- Renumbering changes nothing but the order. -/
theorem perm_renumbered (π : Equiv.Perm (Fin n)) (xs : List β) :
    (renumbered π xs).Perm xs := by
  rw [renumbered]
  split
  · next h =>
    subst h
    exact (Equiv.Perm.ofFn_comp_perm π.symm xs.get).trans (.of_eq (List.ofFn_get xs))
  · exact .refl xs

theorem mem_renumbered {π : Equiv.Perm (Fin n)} {xs : List β} {x : β} :
    x ∈ renumbered π xs ↔ x ∈ xs :=
  (perm_renumbered π xs).mem_iff

theorem map_renumbered (π : Equiv.Perm (Fin n)) (f : β → γ) (xs : List β) :
    (renumbered π xs).map f = renumbered π (xs.map f) := by
  by_cases h : xs.length = n
  · refine eq_renumbered ((List.length_map f).trans h) fun c => ?_
    rw [List.getElem?_map, getElem?_renumbered π h, List.getElem?_map]
  · rw [renumbered_of_length_ne π h, renumbered_of_length_ne π (by rwa [List.length_map])]

theorem renumbered_replicate (π : Equiv.Perm (Fin n)) (m : Nat) (x : β) :
    renumbered π (List.replicate m x) = List.replicate m x := by
  refine List.eq_replicate_iff.2 ⟨by simp, fun y hy => ?_⟩
  exact (List.mem_replicate.1 (mem_renumbered.1 hy)).2

theorem zip_renumbered (π : Equiv.Perm (Fin n)) {xs : List β} {ys : List γ}
    (hx : xs.length = n) (hy : ys.length = n) :
    (renumbered π xs).zip (renumbered π ys) = renumbered π (xs.zip ys) := by
  have hlength : (xs.zip ys).length = n := by
    rw [List.length_zip, hx, hy, Nat.min_self]
  refine eq_renumbered hlength fun c => ?_
  simp only [List.zip, List.getElem?_zipWith, getElem?_renumbered π hx, getElem?_renumbered π hy]

/-- A renumbered list has the new places. -/
theorem zipIdx_renumbered (π : Equiv.Perm (Fin n)) {xs : List β} (h : xs.length = n) :
    (renumbered π xs).zipIdx = renumbered π (xs.zipIdx.map (Prod.map id (renumber π))) := by
  refine eq_renumbered (by simpa using h) fun c => ?_
  rw [List.getElem?_zipIdx, getElem?_renumbered π h, List.getElem?_map, List.getElem?_zipIdx]
  cases xs[c]? <;> simp

/-! ## Outcomes -/

theorem nth_renumbered (π : Equiv.Perm (Fin n)) {xs : List β} (h : xs.length = n) (c : Nat) :
    (Outcome.nth (renumbered π xs) (renumber π c) : Outcome α β) = Outcome.nth xs c := by
  rw [Outcome.nth, Outcome.nth, getElem?_renumbered π h]

/-- What belongs together one by one does so in the new order. -/
theorem forall₂_renumbered (π : Equiv.Perm (Fin n)) {R : β → γ → Prop} {xs : List β}
    {ys : List γ} (h : List.Forall₂ R xs ys) :
    List.Forall₂ R (renumbered π xs) (renumbered π ys) := by
  by_cases hx : xs.length = n
  · have hy : ys.length = n := h.length_eq.symm.trans hx
    rw [List.forall₂_iff_zip] at h ⊢
    refine ⟨by simpa using h.1, fun hmem => h.2 ?_⟩
    rwa [zip_renumbered π hx hy, mem_renumbered] at hmem
  · have hy : ys.length ≠ n := fun hy => hx (h.length_eq.trans hy)
    rwa [renumbered_of_length_ne π hx, renumbered_of_length_ne π hy]

/-- What succeeds at every place succeeds at the new places, and the results are
renumbered. -/
theorem mapM_renumbered (π : Equiv.Perm (Fin n)) {f f' : β × Nat → Outcome α γ} {xs : List β}
    {ys : List γ} (hx : xs.length = n) (h : xs.zipIdx.mapM f = .ok ys)
    (hf : ∀ x c y, xs[c]? = some x → f (x, c) = .ok y → f' (x, renumber π c) = .ok y) :
    (renumbered π xs).zipIdx.mapM f' = .ok (renumbered π ys) := by
  rw [zipIdx_renumbered π hx]
  have hmoved : (xs.zipIdx.map (Prod.map id (renumber π))).mapM f' = .ok ys := by
    refine Outcome.mapM_map_eq_ok h fun ⟨x, c⟩ hmem y hy => ?_
    exact hf x c y (List.mem_zipIdx_iff_getElem?.1 hmem) hy
  exact Outcome.mapM_eq_ok_iff.2 (forall₂_renumbered π (Outcome.mapM_eq_ok_iff.1 hmoved))

end LatentFactors
