import Mathlib.Data.List.Chain
import LatentFactors.Tuning

/-!
# Sorting by any comparison

`Tuning.sortAscending` asks only which of two elements is less, and nothing is known
of the answers: they need not come from an order.

What it does is said by two splits.  An inserted element stands behind one that it is
not less than, and before one that it is less than (`insertSorted_cases`).  The run at
the start is a part of the list in which no element is less than the one before it, or
it is turned around from a part in which each one is (`leadingRun_cases`).

The two ends of the sorted list follow from that.  An element comes first if it is less
than all before it and none after it is less than it (`head?_sortAscending`).  It comes
last if it is not less than any before it and all after it are less than it
(`getLast?_sortAscending`).
-/

namespace LatentFactors.Tuning

variable {β : Type} {less : β → β → Bool}

/-! ## Inserting -/

variable (less) in
/-- Bisection ends behind an element that is not above the new one, and at one that
is. -/
theorem bisect_spec (xs : Array β) (x : β) {low high : Nat} (h : low ≤ high) :
    low ≤ bisect less xs x low high ∧ bisect less xs x low high ≤ high ∧
      (low < bisect less xs x low high →
        xs[bisect less xs x low high - 1]?.any (less x) = false) ∧
      (bisect less xs x low high < high → xs[bisect less xs x low high]?.any (less x) = true) := by
  fun_induction bisect less xs x low high with
  | case1 low high hlt middle habove ih =>
    obtain ⟨hlow, hle, hbehind, hat⟩ := ih (by omega)
    refine ⟨hlow, by omega, hbehind, fun _ => ?_⟩
    rcases Nat.lt_or_eq_of_le hle with hinside | heq
    · exact hat hinside
    · rw [heq]
      exact habove
  | case2 low high hlt middle hbelow ih =>
    obtain ⟨hlow, hle, hbehind, hat⟩ := ih (by omega)
    refine ⟨by omega, hle, fun _ => ?_, hat⟩
    rcases Nat.lt_or_eq_of_le hlow with hinside | heq
    · exact hbehind hinside
    · rw [← heq, Nat.add_sub_cancel]
      exact Bool.eq_false_iff.2 hbelow
  | case3 low high hnot =>
    exact ⟨Nat.le_refl _, h, fun hlt => absurd hlt (Nat.lt_irrefl _), fun hlt => absurd hlt hnot⟩

variable (less) in
/-- An element is inserted behind one that it is not less than, or at the start, and
before one that it is less than, or at the end. -/
theorem insertSorted_cases (sorted : List β) (x : β) :
    ∃ front back, sorted = front ++ back ∧ insertSorted less sorted x = front ++ x :: back ∧
      (∀ y ∈ front.getLast?, less x y = false) ∧ ∀ y ∈ back.head?, less x y = true := by
  obtain ⟨-, hle, hbehind, hat⟩ := bisect_spec less sorted.toArray x
    (Nat.zero_le sorted.length)
  generalize hplace : bisect less sorted.toArray x 0 sorted.length = place at hle hbehind hat
  refine ⟨sorted.take place, sorted.drop place, (List.take_append_drop ..).symm, ?_, ?_, ?_⟩
  · rw [insertSorted, hplace]
  · intro y hy
    rw [Option.mem_def, List.getLast?_take] at hy
    split at hy
    · cases hy
    · have hinside : place - 1 < sorted.length := by omega
      rw [List.getElem?_eq_getElem hinside, Option.some_or] at hy
      have hbelow := hbehind (by omega)
      rwa [List.getElem?_toArray, List.getElem?_eq_getElem hinside, hy] at hbelow
  · intro y hy
    rw [Option.mem_def, List.head?_drop] at hy
    have habove := hat (List.getElem?_eq_some_iff.1 hy).1
    rwa [List.getElem?_toArray, hy] at habove

/-- Nothing is lost by inserting. -/
theorem insertSorted_perm (sorted : List β) (x : β) :
    (insertSorted less sorted x).Perm (x :: sorted) := by
  obtain ⟨front, back, rfl, hinserted, -, -⟩ := insertSorted_cases less sorted x
  rw [hinserted]
  exact List.perm_middle

/-- The first element stays first if the new one is not less than it. -/
theorem head?_insertSorted {sorted : List β} {first x : β} (h : sorted.head? = some first)
    (hx : less x first = false) : (insertSorted less sorted x).head? = some first := by
  obtain ⟨front, back, rfl, hinserted, -, hback⟩ := insertSorted_cases less sorted x
  cases front with
  | nil =>
    rw [hback first h] at hx
    cases hx
  | cons y front =>
    rw [hinserted]
    exact h

/-- The last element stays last if the new one is less than it. -/
theorem getLast?_insertSorted {sorted : List β} {last x : β} (h : sorted.getLast? = some last)
    (hx : less x last = true) : (insertSorted less sorted x).getLast? = some last := by
  obtain ⟨front, back, rfl, hinserted, hfront, -⟩ := insertSorted_cases less sorted x
  cases back with
  | nil =>
    rw [List.append_nil] at h
    rw [hfront last h] at hx
    cases hx
  | cons y back =>
    rw [List.getLast?_append_cons] at h
    rw [hinserted, List.getLast?_append_cons, List.getLast?_cons_cons]
    exact h

/-- An element that is less than all others comes first. -/
theorem head?_insertSorted_of_less {sorted : List β} {x : β}
    (h : ∀ y ∈ sorted, less x y = true) : (insertSorted less sorted x).head? = some x := by
  obtain ⟨front, back, rfl, hinserted, hfront, -⟩ := insertSorted_cases less sorted x
  rcases hlast : front.getLast? with _ | y
  · rw [hinserted, List.getLast?_eq_none_iff.1 hlast]
    rfl
  · have hbelow := h y (List.mem_append_left back (List.mem_of_getLast? hlast))
    rw [hfront y hlast] at hbelow
    cases hbelow

/-- An element that is less than no other one comes last. -/
theorem getLast?_insertSorted_of_not_less {sorted : List β} {x : β}
    (h : ∀ y ∈ sorted, less x y = false) : (insertSorted less sorted x).getLast? = some x := by
  obtain ⟨front, back, rfl, hinserted, -, hback⟩ := insertSorted_cases less sorted x
  rcases hhead : back.head? with _ | y
  · rw [hinserted, List.head?_eq_none_iff.1 hhead, List.getLast?_append]
    rfl
  · have habove := h y (List.mem_append_right front (List.mem_of_head? hhead))
    rw [hback y hhead] at habove
    cases habove

/-! ## Inserting one after the other -/

variable (less) in
theorem foldl_insertSorted_perm (sorted rest : List β) :
    (rest.foldl (insertSorted less) sorted).Perm (sorted ++ rest) := by
  induction rest generalizing sorted with
  | nil => rw [List.append_nil]; rfl
  | cons x rest ih =>
    refine (ih _).trans (((insertSorted_perm sorted x).append_right rest).trans ?_)
    exact List.perm_middle.symm

theorem head?_foldl_insertSorted {sorted rest : List β} {first : β}
    (h : sorted.head? = some first) (hrest : ∀ x ∈ rest, less x first = false) :
    (rest.foldl (insertSorted less) sorted).head? = some first := by
  induction rest generalizing sorted with
  | nil => exact h
  | cons x rest ih =>
    have hfirst := head?_insertSorted h (hrest x List.mem_cons_self)
    exact ih hfirst fun y hy => hrest y (List.mem_cons_of_mem x hy)

theorem getLast?_foldl_insertSorted {sorted rest : List β} {last : β}
    (h : sorted.getLast? = some last) (hrest : ∀ x ∈ rest, less x last = true) :
    (rest.foldl (insertSorted less) sorted).getLast? = some last := by
  induction rest generalizing sorted with
  | nil => exact h
  | cons x rest ih =>
    have hlast := getLast?_insertSorted h (hrest x List.mem_cons_self)
    exact ih hlast fun y hy => hrest y (List.mem_cons_of_mem x hy)

/-! ## The run at the start -/

theorem splitRun_spec (related : β → β → Bool) (xs : List β) :
    (splitRun related xs).1 ++ (splitRun related xs).2 = xs ∧
      (splitRun related xs).1.head? = xs.head? ∧
      (splitRun related xs).1.IsChain (related · · = true) := by
  fun_induction splitRun related xs with
  | case1 => exact ⟨rfl, rfl, .nil⟩
  | case2 x => exact ⟨rfl, rfl, .singleton x⟩
  | case3 x y rest hrelated run tail heq ih =>
    rw [heq] at ih
    obtain ⟨happend, hhead, hchain⟩ := ih
    refine ⟨congrArg (x :: ·) happend, rfl, hchain.cons fun z hz => ?_⟩
    rw [hhead, List.head?_cons, Option.mem_some_iff] at hz
    rwa [← hz]
  | case4 x y rest hnot => exact ⟨rfl, rfl, .singleton x⟩

variable (less) in
/-- The run at the start is a part of the list in which no element is less than the
one before it, or it is turned around from a part in which every one is. -/
theorem leadingRun_cases (xs : List β) :
    ∃ start rest, xs = start ++ rest ∧
      (leadingRun less xs = (start, rest) ∧ start.IsChain (fun a b => less b a = false) ∨
        leadingRun less xs = (start.reverse, rest) ∧
          start.IsChain (fun a b => less b a = true)) := by
  fun_cases leadingRun less xs with
  | case1 x y rest hless run tail heq =>
    obtain ⟨happend, -, hchain⟩ := splitRun_spec (fun a b => less b a) (x :: y :: rest)
    rw [heq] at happend hchain
    exact ⟨run, tail, happend.symm, .inr ⟨rfl, hchain⟩⟩
  | case2 x y rest hnot =>
    obtain ⟨happend, -, hchain⟩ := splitRun_spec (fun a b => !less b a) (x :: y :: rest)
    refine ⟨_, _, happend.symm, .inl ⟨rfl, hchain.imp fun a b h => ?_⟩⟩
    rwa [Bool.not_eq_true'] at h
  | case3 xs hshort =>
    refine ⟨xs, [], (List.append_nil xs).symm, .inl ⟨rfl, ?_⟩⟩
    rcases xs with _ | ⟨x, _ | ⟨y, rest⟩⟩
    · exact .nil
    · exact .singleton x
    · exact absurd rfl (hshort x y rest)

/-! ## Sorting -/

/-- Nothing is lost by sorting. -/
theorem sortAscending_perm (xs : List β) : (sortAscending less xs).Perm xs := by
  obtain ⟨start, rest, rfl, ⟨hrun, -⟩ | ⟨hrun, -⟩⟩ := leadingRun_cases less xs
  · rw [sortAscending, hrun]
    exact foldl_insertSorted_perm less start rest
  · rw [sortAscending, hrun]
    exact (foldl_insertSorted_perm less _ rest).trans ((List.reverse_perm start).append_right rest)

variable (less) in
/-- An element of a list is in the run at the start, or it is inserted after the
elements before it have been sorted. -/
theorem sortAscending_split (before : List β) (x : β) (after : List β) :
    (∃ early late, after = early ++ late ∧
      ((before ++ x :: early).IsChain (fun a b => less b a = false) ∧
          sortAscending less (before ++ x :: after) =
            late.foldl (insertSorted less) (before ++ x :: early) ∨
        (before ++ x :: early).IsChain (fun a b => less b a = true) ∧
          sortAscending less (before ++ x :: after) =
            late.foldl (insertSorted less) (before ++ x :: early).reverse)) ∨
    ∃ sorted, sorted.Perm before ∧ sortAscending less (before ++ x :: after) =
      after.foldl (insertSorted less) (insertSorted less sorted x) := by
  obtain ⟨start, rest, happend, hrun⟩ := leadingRun_cases less (before ++ x :: after)
  have hperm : (leadingRun less (before ++ x :: after)).1.Perm start := by
    rcases hrun with ⟨hrun, -⟩ | ⟨hrun, -⟩ <;> rw [hrun]
    exact List.reverse_perm start
  have hsorted : sortAscending less (before ++ x :: after) =
      rest.foldl (insertSorted less) (leadingRun less (before ++ x :: after)).1 := by
    rcases hrun with ⟨hrun, -⟩ | ⟨hrun, -⟩ <;> rw [sortAscending, hrun]
  rcases List.append_eq_append_iff.1 happend with ⟨inRun, rfl, hafter⟩ | ⟨later, rfl, rfl⟩
  · rcases List.cons_eq_append_iff.1 hafter with ⟨rfl, rfl⟩ | ⟨early, rfl, rfl⟩
    · rw [List.append_nil] at hperm
      exact .inr ⟨_, hperm, hsorted⟩
    · refine .inl ⟨early, rest, rfl, hrun.imp ?_ ?_⟩ <;> rintro ⟨hrun, hchain⟩
      · exact ⟨hchain, by rw [hsorted, hrun]⟩
      · exact ⟨hchain, by rw [hsorted, hrun]⟩
  · have hfolded := foldl_insertSorted_perm less
      (leadingRun less (start ++ later ++ x :: after)).1 later
    refine .inr ⟨_, hfolded.trans (hperm.append_right later), ?_⟩
    rw [hsorted, List.foldl_append, List.foldl_cons]

/-- An element comes first if it is less than all before it, and none after it is less
than it. -/
theorem head?_sortAscending {before after : List β} {x : β}
    (hbefore : ∀ y ∈ before, less x y = true) (hafter : ∀ y ∈ after, less y x = false) :
    (sortAscending less (before ++ x :: after)).head? = some x := by
  rcases sortAscending_split less before x after with
    ⟨early, late, rfl, hrun⟩ | ⟨sorted, hperm, hsorted⟩
  · have hlate : ∀ y ∈ late, less y x = false := fun y hy =>
      hafter y (List.mem_append_right early hy)
    rcases hrun with ⟨hchain, hsorted⟩ | ⟨hchain, hsorted⟩
    · -- Nothing stands before the element, which would be less than its neighbour.
      rcases List.eq_nil_or_concat before with rfl | ⟨front, y, rfl⟩
      · rw [hsorted]
        exact head?_foldl_insertSorted rfl hlate
      · rw [List.concat_eq_append, List.append_assoc, List.singleton_append,
          List.isChain_append_cons_cons, hbefore y (by simp)] at hchain
        cases hchain.2.1
    · cases early with
      | nil =>
        rw [hsorted]
        exact head?_foldl_insertSorted (by simp) hlate
      | cons y early =>
        rw [List.isChain_append_cons_cons, hafter y (by simp)] at hchain
        cases hchain.2.1
  · rw [hsorted]
    refine head?_foldl_insertSorted (head?_insertSorted_of_less fun y hy => ?_) hafter
    exact hbefore y (hperm.mem_iff.1 hy)

/-- An element comes last if it is not less than any before it, and all after it are
less than it. -/
theorem getLast?_sortAscending {before after : List β} {x : β}
    (hbefore : ∀ y ∈ before, less x y = false) (hafter : ∀ y ∈ after, less y x = true) :
    (sortAscending less (before ++ x :: after)).getLast? = some x := by
  rcases sortAscending_split less before x after with
    ⟨early, late, rfl, hrun⟩ | ⟨sorted, hperm, hsorted⟩
  · have hlate : ∀ y ∈ late, less y x = true := fun y hy =>
      hafter y (List.mem_append_right early hy)
    rcases hrun with ⟨hchain, hsorted⟩ | ⟨hchain, hsorted⟩
    · -- Nothing stands after the element, since it would be less than its neighbour.
      cases early with
      | nil =>
        rw [hsorted]
        exact getLast?_foldl_insertSorted (by simp) hlate
      | cons y early =>
        rw [List.isChain_append_cons_cons, hafter y (by simp)] at hchain
        cases hchain.2.1
    · rcases List.eq_nil_or_concat before with rfl | ⟨front, y, rfl⟩
      · rw [hsorted]
        exact getLast?_foldl_insertSorted (by simp) hlate
      · rw [List.concat_eq_append, List.append_assoc, List.singleton_append,
          List.isChain_append_cons_cons, hbefore y (by simp)] at hchain
        cases hchain.2.1
  · rw [hsorted]
    refine getLast?_foldl_insertSorted (getLast?_insertSorted_of_not_less fun y hy => ?_) hafter
    exact hbefore y (hperm.mem_iff.1 hy)

end LatentFactors.Tuning
