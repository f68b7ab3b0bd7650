import Mathlib.Data.Rat.Cast.CharZero
import LatentFactors.Proofs.Arithmetic
import LatentFactors.Proofs.Grouping
import LatentFactors.Proofs.Outcome
import LatentFactors.Proofs.Table

/-!
# Rows of frames

A column that is read after picking some rows gives what is read before, at these
rows (`Column.ids_pick`, `Column.numerals_pick`, `Column.values_pick`,
`Column.wholeNumbers_pick`), and so does a frame.  Picking goes through all columns
of a frame, also one that was added (`Frame.pick_assign`).

In exact arithmetic numbers that are fractions of integers name different users or items
unless they are equal (`Column.idOfReal_beq_iff`).

The columns of a rectangular frame have one length.  There, picking rows of rows is
picking once (`Frame.pick_pick`).
-/

namespace LatentFactors

variable {α β γ : Type}

/-- What a map gives at some rows is what it gives from these rows. -/
theorem Outcome.mapM_pickRows {f : β → Outcome α γ} {xs : List β} {ys : List γ}
    (h : xs.mapM f = .ok ys) (rows : List Nat) :
    (pickRows rows xs).mapM f = .ok (pickRows rows ys) := by
  rw [pickRows_eq_filterMap, pickRows_eq_filterMap, Outcome.mapM_eq_ok_iff]
  induction rows with
  | nil => exact .nil
  | cons row rows ih =>
    cases hx : xs[row]? with
    | none =>
      have hy : ys[row]? = none := by
        rw [List.getElem?_eq_none_iff] at hx ⊢
        rwa [Outcome.length_of_mapM h]
      rwa [List.filterMap_cons_none hx, List.filterMap_cons_none hy]
    | some x =>
      obtain ⟨y, hy, hxy⟩ := Outcome.getElem?_of_mapM h hx
      rw [List.filterMap_cons_some hx, List.filterMap_cons_some hy]
      exact .cons hxy ih

theorem Width.wrap_of_fits {n : Int} (h : Width.signed.fits n = true) :
    Width.signed.wrap n = n := by
  rw [Width.fits, Bool.and_eq_true, decide_eq_true_eq, decide_eq_true_eq, signedLimit] at h
  have hlimit : unsignedLimit.toNat = 18446744073709551616 := rfl
  rw [Width.wrap, hlimit]
  exact Int.bmod_eq_of_le (by omega) (by omega)

namespace Column

theorem pick_nil {c : Column α} (h : c.size = 0) : c.pick [] = c := by
  cases c <;> rw [List.eq_nil_of_length_eq_zero h] <;> rfl

theorem pick_pick {c : Column α} {rows : List Nat} (h : ∀ row ∈ rows, row < c.size)
    (places : List Nat) : (c.pick rows).pick places = c.pick (pickRows places rows) := by
  cases c <;> simp only [pick, pickRows_pickRows h places]

variable [Scalar α]

theorem length_ids (c : Column α) : c.ids.length = c.size := by
  cases c <;> exact List.length_map _

theorem ids_pick (c : Column α) (rows : List Nat) : (c.pick rows).ids = pickRows rows c.ids := by
  cases c <;> exact (pickRows_map rows _ _).symm

/-- In one column a name is spelled in one way. -/
theorem exists_spelling (c : Column α) :
    ∃ spelling : Name → Option String, ∀ id ∈ c.ids, id.spelling = spelling id.name := by
  cases c with
  | ints width values => exact ⟨fun _ => none, List.forall_mem_map.2 fun n _ => rfl⟩
  | texts values =>
    refine ⟨fun _ => none, List.forall_mem_map.2 fun s _ => ?_⟩
    cases s <;> rfl
  | flags values => exact ⟨fun _ => none, List.forall_mem_map.2 fun b _ => rfl⟩
  | cells values =>
    refine ⟨fun _ => none, List.forall_mem_map.2 fun cell _ => ?_⟩
    cases cell <;> rfl
  | reals values =>
    -- Only whole numbers have a spelling of their own, and it follows from the number.
    refine ⟨fun
      | .int n => some (Scalar.spell (Scalar.ofInt n : α))
      | _ => none, List.forall_mem_map.2 fun x _ => ?_⟩
    cases x with
    | none => rfl
    | some x =>
      rw [Option.elim_some, idOfReal]
      split
      · dsimp only
        split <;> rfl
      · rfl
      · rfl

/-- Two names of one column that are equal are spelled alike. -/
theorem eq_of_name_eq {c : Column α} {a b : Id} (ha : a ∈ c.ids) (hb : b ∈ c.ids)
    (h : a.name = b.name) : a = b := by
  obtain ⟨spelling, hspelling⟩ := c.exists_spelling
  obtain ⟨name, written⟩ := a
  obtain ⟨name', written'⟩ := b
  obtain rfl : name = name' := h
  exact congrArg (Id.mk name) ((hspelling _ ha).trans (hspelling _ hb).symm)

section Exact

variable {K : Type} [ExactScalar K]

/-- An exact number names the integer that it equals, or else its spelling. -/
theorem name_idOfReal (x : K) :
    (∃ n : Int, (idOfReal x).name = .int n ∧ x = n) ∨
      (idOfReal x).name = .fraction (Scalar.spell x) := by
  rw [idOfReal]
  split
  · next n _ =>
    dsimp only
    split
    · next h =>
      exact .inl ⟨n, rfl, ((ExactScalar.equals_iff _ _).1 h).trans (ExactScalar.ofInt_eq n)⟩
    · exact .inr rfl
  · exact .inr rfl
  · next h => exact absurd h (ExactScalar.truncate_ne_undefined x)

/-- Fractions of integers name one user or item exactly if they are equal. -/
theorem idOfReal_beq_iff (p q : ℚ) : (idOfReal (p : K) == idOfReal (q : K)) = true ↔ p = q := by
  rw [Id.beq_iff]
  refine ⟨fun h => ?_, fun h => by rw [h]⟩
  rcases name_idOfReal (p : K) with ⟨n, hn, hp⟩ | hp <;>
    rcases name_idOfReal (q : K) with ⟨m, hm, hq⟩ | hq
  · rw [hn, hm, Name.int.injEq] at h
    rw [h, ← hq] at hp
    exact Rat.cast_injective hp
  · rw [hn, hq] at h
    cases h
  · rw [hp, hm] at h
    cases h
  · rw [hp, hq, Name.fraction.injEq] at h
    exact ExactScalar.spell_ratCast_injective p q h

end Exact

theorem length_numerals {c : Column α} {ys : List (Numeral α)} (h : c.numerals = .ok ys) :
    ys.length = c.size := by
  cases c with
  | texts values => exact Outcome.length_of_mapM h
  | ints | reals | flags | cells =>
    cases h
    exact List.length_map _

theorem numerals_pick {c : Column α} {ys : List (Numeral α)} (h : c.numerals = .ok ys)
    (rows : List Nat) : (c.pick rows).numerals = .ok (pickRows rows ys) := by
  cases c with
  | texts values => exact Outcome.mapM_pickRows h rows
  | ints | reals | flags | cells =>
    cases h
    exact congrArg Except.ok (pickRows_map rows _ _).symm

theorem values_eq_ok {c : Column α} {xs : List α} (h : c.values = .ok xs) :
    ∃ ys, c.numerals = .ok ys ∧ ys.mapM Outcome.real = .ok xs :=
  Outcome.bind_eq_ok.1 h

theorem values_reals (xs : List (Option α)) :
    (reals xs).values = .ok (xs.map (·.getD Scalar.undefined)) := by
  refine Outcome.bind_eq_ok.2 ⟨_, rfl, Outcome.mapM_eq_ok_iff.2 ?_⟩
  rw [List.forall₂_map_left_iff, List.forall₂_map_right_iff, List.forall₂_same]
  exact fun x _ => rfl

theorem length_values {c : Column α} {xs : List α} (h : c.values = .ok xs) :
    xs.length = c.size := by
  obtain ⟨ys, hys, hxs⟩ := values_eq_ok h
  rw [Outcome.length_of_mapM hxs, length_numerals hys]

theorem values_pick {c : Column α} {xs : List α} (h : c.values = .ok xs) (rows : List Nat) :
    (c.pick rows).values = .ok (pickRows rows xs) := by
  obtain ⟨ys, hys, hxs⟩ := values_eq_ok h
  exact Outcome.bind_eq_ok.2 ⟨_, numerals_pick hys rows, Outcome.mapM_pickRows hxs rows⟩

theorem wholeNumbers_pick {c : Column α} {ns : List Int} (h : c.wholeNumbers = .ok ns)
    (rows : List Nat) : (c.pick rows).wholeNumbers = .ok (pickRows rows ns) := by
  cases c with
  | flags values =>
    cases h
    exact congrArg Except.ok (pickRows_map rows _ _).symm
  | ints | reals | texts | cells => exact Outcome.mapM_pickRows h rows

/-- Integers that fit a word with a sign are whole numbers as they are. -/
theorem wholeNumbers_ints {width : Width} {ns : List Int}
    (h : ∀ n ∈ ns, Width.signed.fits n = true) :
    (ints (α := α) width ns).wholeNumbers = .ok ns := by
  refine Outcome.mapM_eq_ok_iff.2 (List.forall₂_same.2 fun n hn => ?_)
  have hwrap : Width.signed.wrap n = n := Width.wrap_of_fits (h n hn)
  cases width with
  | signed | unsigned => exact congrArg Except.ok hwrap
  | unbounded => exact if_pos (h n hn)

end Column

namespace Frame

/-! ## Columns -/

/-- Picking changes the columns under their names. -/
theorem columns_pick (f : Frame α) (rows : List Nat) :
    (f.pick rows).columns = f.columns.relabel id fun _ c => c.pick rows := rfl

theorem column_eq_ok_iff {f : Frame α} {name : String} {c : Column α} :
    f.column name = .ok c ↔ f.columns.find? name = some c := by
  rw [column]
  cases f.columns.find? name <;> simp

theorem column_pick {f : Frame α} {name : String} {c : Column α} (h : f.column name = .ok c)
    (rows : List Nat) : (f.pick rows).column name = .ok (c.pick rows) := by
  rw [column_eq_ok_iff] at h ⊢
  have hfind : (f.columns.relabel id fun _ c => c.pick rows).find? (id name) =
      (f.columns.find? name).map (Column.pick rows) :=
    Table.find?_relabel (fun _ _ => rfl) (fun _ _ _ => rfl) f.columns name
  rwa [h] at hfind

theorem column_assign_self (f : Frame α) (name : String) (c : Column α) :
    (f.assign name c).column name = .ok c := by
  rw [column_eq_ok_iff, assign, Table.find?_insert, beq_self_eq_true, if_pos rfl]

theorem column_assign_of_ne {name other : String} (h : other ≠ name) (f : Frame α) (c : Column α) :
    (f.assign name c).column other = f.column other := by
  rw [column, column, assign, Table.find?_insert, beq_false_of_ne h.symm]
  rfl

theorem pick_assign (f : Frame α) (name : String) (c : Column α) (rows : List Nat) :
    (f.assign name c).pick rows = (f.pick rows).assign name (c.pick rows) := by
  have hinsert : (f.columns.insert name c).relabel id (fun _ c => c.pick rows) =
      (f.columns.relabel id fun _ c => c.pick rows).insert (id name) (c.pick rows) :=
    Table.relabel_insert (fun _ _ => rfl) (fun _ _ _ => rfl) f.columns name c
  exact congrArg Frame.mk hinsert

/-! ## Rectangular frames -/

/-- All columns have the length of the frame. -/
def Rectangular (f : Frame α) : Prop := ∀ e ∈ f.columns.entries, e.2.size = f.size

theorem Rectangular.size_of_column {f : Frame α} (hf : f.Rectangular) {name : String} {c : Column α}
    (h : f.column name = .ok c) : c.size = f.size := by
  obtain ⟨e, he, -, rfl⟩ := Table.exists_of_findEntry_eq_some (column_eq_ok_iff.1 h)
  exact hf e he

/-- A rectangular frame without rows has none to leave out. -/
theorem Rectangular.pick_nil {f : Frame α} (hf : f.Rectangular) (h : f.size = 0) :
    f.pick [] = f := by
  obtain ⟨⟨entries⟩⟩ := f
  have hsame : ∀ e ∈ entries, (e.1, e.2.pick []) = e := fun e he =>
    Prod.ext rfl (Column.pick_nil ((hf e he).trans h))
  exact congrArg (fun entries => Frame.mk ⟨entries⟩)
    ((List.map_congr_left hsame).trans (List.map_id entries))

theorem Rectangular.pick_pick {f : Frame α} (hf : f.Rectangular) {rows : List Nat}
    (h : ∀ row ∈ rows, row < f.size) (places : List Nat) :
    (f.pick rows).pick places = f.pick (pickRows places rows) := by
  refine congrArg (fun entries => Frame.mk ⟨entries⟩) ?_
  rw [columns_pick, Table.relabel, List.map_map]
  refine List.map_congr_left fun e he => Prod.ext rfl ?_
  exact Column.pick_pick (fun row hrow => Nat.lt_of_lt_of_eq (h row hrow) (hf e he).symm) places

/-- A frame of some rows has as many rows. -/
theorem size_pick {f : Frame α} {rows : List Nat} (h : ∀ row ∈ rows, row < f.size) :
    (f.pick rows).size = rows.length := by
  obtain ⟨⟨entries⟩⟩ := f
  cases entries with
  | nil =>
    have hnone : rows = [] := List.eq_nil_iff_forall_not_mem.2 fun row hrow =>
      Nat.not_lt_zero row (h row hrow)
    rw [hnone]
    rfl
  | cons e entries =>
    obtain ⟨name, c⟩ := e
    cases c <;> exact length_pickRows h

/-! ## Reading -/

variable [Scalar α]

theorem ids_pick {f : Frame α} {name : String} {ids : List Id} (h : f.ids name = .ok ids)
    (rows : List Nat) : (f.pick rows).ids name = .ok (pickRows rows ids) := by
  obtain ⟨c, hc, hids⟩ := Outcome.bind_eq_ok.1 h
  cases hids
  exact Outcome.bind_eq_ok.2 ⟨_, column_pick hc rows, congrArg Except.ok (c.ids_pick rows)⟩

/-- If every row has a user, then these are the users of the frame. -/
theorem users_of_present {f : Frame α} {users : List Id} (h : f.ids "user" = .ok users)
    (hpresent : ∀ user ∈ users, user.isPresent = true) : f.users = .ok (users.map some) := by
  refine Outcome.bind_eq_ok.2 ⟨users, h, congrArg Except.ok (List.map_congr_left fun u hu => ?_)⟩
  rw [if_pos (hpresent u hu)]

theorem users_pick {f : Frame α} {users : List (Option Id)} (h : f.users = .ok users)
    (rows : List Nat) : (f.pick rows).users = .ok (pickRows rows users) := by
  obtain ⟨ids, hids, h⟩ := Outcome.bind_eq_ok.1 h
  cases h
  refine Outcome.bind_eq_ok.2 ⟨_, ids_pick hids rows, congrArg Except.ok ?_⟩
  exact (pickRows_map rows _ ids).symm

theorem users_assign {name : String} (h : "user" ≠ name) (f : Frame α) (c : Column α) :
    (f.assign name c).users = f.users := by
  simp only [users, ids, column_assign_of_ne h]

theorem Rectangular.length_ids {f : Frame α} (hf : f.Rectangular) {name : String} {ids : List Id}
    (h : f.ids name = .ok ids) : ids.length = f.size := by
  obtain ⟨c, hc, hids⟩ := Outcome.bind_eq_ok.1 h
  cases hids
  rw [Column.length_ids, hf.size_of_column hc]

theorem values_pick {f : Frame α} {name : String} {xs : List α} (h : f.values name = .ok xs)
    (rows : List Nat) : (f.pick rows).values name = .ok (pickRows rows xs) := by
  obtain ⟨c, hc, hvalues⟩ := Outcome.bind_eq_ok.1 h
  exact Outcome.bind_eq_ok.2 ⟨_, column_pick hc rows, Column.values_pick hvalues rows⟩

theorem values_assign_self (f : Frame α) (name : String) (c : Column α) :
    (f.assign name c).values name = c.values := by
  rw [values, column_assign_self, Outcome.bind_ok]

theorem values_assign_of_ne {name other : String} (h : other ≠ name) (f : Frame α) (c : Column α) :
    (f.assign name c).values other = f.values other := by
  rw [values, values, column_assign_of_ne h]

theorem Rectangular.length_users {f : Frame α} (hf : f.Rectangular) {users : List (Option Id)}
    (h : f.users = .ok users) : users.length = f.size := by
  obtain ⟨ids, hids, h⟩ := Outcome.bind_eq_ok.1 h
  cases h
  rw [List.length_map, hf.length_ids hids]

theorem Rectangular.length_values {f : Frame α} (hf : f.Rectangular) {name : String} {xs : List α}
    (h : f.values name = .ok xs) : xs.length = f.size := by
  obtain ⟨c, hc, hxs⟩ := Outcome.bind_eq_ok.1 h
  rw [Column.length_values hxs, hf.size_of_column hc]

end Frame

end LatentFactors
