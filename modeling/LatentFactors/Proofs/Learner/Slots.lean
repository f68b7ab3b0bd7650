import LatentFactors.Proofs.Gradient.Pointwise
import LatentFactors.Proofs.Learner.Runs
import LatentFactors.Proofs.Vec.Product

/-!
# The reserved entries of the factors

Every factor vector reserves three entries.  Entry zero is zero, entry one of
a user is a constant one, which the bias of an item meets, and entry two of an
item is a constant one, which the bias of a user meets.

Training steps over the constant ones by their index.  Nothing steps over
entry zero: it stays because the vectors of the other side are zero there, so
no walk comes by.  The users and the items are therefore followed together,
by `FactorSlots`, which every change keeps (`Learner.Change.slots`).

With the reserved entries the product of a user and an item vector is the sum
of both biases and of the products of the remaining entries
(`Vec.dot_of_slots`).
-/

namespace LatentFactors

/-- A family of dense factor vectors with their reserved entries. -/
structure FactorSlots {α : Type} [Scalar α] (count size intercept : Nat) (family : Family α) :
    Prop where
  length : family.length = count
  dense : ∀ v ∈ family, v.isSparse = false
  size : ∀ v ∈ family, v.size = size + 3
  zero : ∀ v ∈ family, v.entry 0 = 0
  one : ∀ v ∈ family, v.entry intercept = 1

section Kept

variable {α : Type} [Scalar α] [ZeroLaw α] {count size intercept : Nat} {family new : Family α}

/-- An update keeps the reserved entries if it steps over the constant one and
the features are zero at entry zero. -/
theorem FactorSlots.updateFamily (h : FactorSlots count size intercept family) {g : Gradient α}
    {features : Family α} (hzero : ∀ f ∈ features, f.entry 0 = 0) {y : Numeral α}
    {prediction : List α} {penalties : Penalties α}
    (hnew : g.updateFamily family (.perClass features) y prediction penalties
      (some (intercept : Int)) = .ok new) : FactorSlots count size intercept new := by
  have halign := Gradient.updateFamily_aligned hnew
  have hnull : 0 ∉ (Features.perClass features).walked (some (intercept : Int)) := by
    intro hmem
    obtain ⟨⟨f, hf, hlisted⟩, -⟩ := Features.mem_walked.1 hmem
    exact Vec.not_mem_support (hzero f hf) hlisted
  have hone : intercept ∉ (Features.perClass features).walked (some (intercept : Int)) := by
    intro hmem
    exact (Features.mem_walked.1 hmem).2 rfl
  have hold : ∀ w ∈ new, ∃ v ∈ family, w.isSparse = v.isSparse ∧ w.size = v.size ∧
      w.entry 0 = v.entry 0 ∧ w.entry intercept = v.entry intercept := by
    intro w hw
    obtain ⟨c, hc⟩ := List.mem_iff_getElem?.1 hw
    obtain ⟨v, hv, hkind, hsize⟩ := halign.exists_old hc
    exact ⟨v, List.mem_of_getElem? hv, hkind, hsize,
      Gradient.entry_updateFamily_of_not_mem hnew hv hc hnull,
      Gradient.entry_updateFamily_of_not_mem hnew hv hc hone⟩
  refine ⟨halign.length.trans h.length, ?_, ?_, ?_, ?_⟩
  · intro w hw
    obtain ⟨v, hv, hkind, -, -, -⟩ := hold w hw
    exact hkind.trans (h.dense v hv)
  · intro w hw
    obtain ⟨v, hv, -, hsize, -, -⟩ := hold w hw
    exact hsize.trans (h.size v hv)
  · intro w hw
    obtain ⟨v, hv, -, -, hentry, -⟩ := hold w hw
    exact hentry.trans (h.zero v hv)
  · intro w hw
    obtain ⟨v, hv, -, -, -, hentry⟩ := hold w hw
    exact hentry.trans (h.one v hv)

omit [ZeroLaw α] in
theorem FactorSlots.start (source : Nat → α) (hintercept : 0 < intercept)
    (hroom : intercept < size + 3) (place : Nat → Nat) :
    FactorSlots count size intercept
      ((List.range count).map fun c =>
        Store.startVector source intercept (size + 3) (place c)) := by
  refine ⟨by simp, ?_, ?_, ?_, ?_⟩
  · intro v hv
    obtain ⟨c, -, rfl⟩ := List.mem_map.1 hv
    rfl
  · intro v hv
    obtain ⟨c, -, rfl⟩ := List.mem_map.1 hv
    simp [Store.startVector]
  · intro v hv
    obtain ⟨c, -, rfl⟩ := List.mem_map.1 hv
    have hne : 0 ≠ intercept := Nat.ne_of_lt hintercept
    simp [Store.startVector, hne]
  · intro v hv
    obtain ⟨c, -, rfl⟩ := List.mem_map.1 hv
    simp [Store.startVector, hroom]

end Kept

namespace Learner

variable {α : Type} [Scalar α] [ZeroLaw α]

/-- The reserved entries of the families of a kind; parameters of side
information have none. -/
def SlotsOf (shape : Shape α) (size : Nat) (kind : FamilyKind) (family : Family α) : Prop :=
  ∀ intercept, kind.role = .factors intercept →
    FactorSlots shape.vectorCount size intercept family

omit [ZeroLaw α] in
theorem slotsOf_starts {shape : Shape α} {size : Nat}
    (hsize : shape.factorSize.count = .ok (size : Int)) {source : Nat → α} {kind : FamilyKind}
    {family : Family α} (h : Store.Starts shape source kind family) :
    SlotsOf shape size kind family := by
  intro intercept hrole
  unfold Store.Starts at h
  rw [hrole] at h
  obtain ⟨room, n, hcount, hroom, -, rfl⟩ := h
  rw [hsize] at hcount
  injection hcount with hcount
  have hroom_eq : room = size + 3 := by omega
  subst hroom_eq
  have hintercept : 0 < intercept := by
    cases kind <;> cases hrole <;> decide
  exact FactorSlots.start source hintercept hroom fun c => n + c * (size + 3)

/-- Every change keeps the reserved entries of all stored families. -/
theorem Change.slots {l : Learner α} {s t : Store α} {size : Nat} (h : l.Change s t)
    (hsize : s.shape.factorSize.count = .ok (size : Int))
    (hs : s.Families (SlotsOf s.shape size)) : t.Families (SlotsOf s.shape size) := by
  cases h with
  | grow user item t h => exact h.keeps_families hs fun _ _ => slotsOf_starts hsize
  | give key v h => exact hs
  | forget key => exact hs
  | learn user item y g u new hgather himprove =>
    have hgrows : s.Grows user item u := (gather_moves l user item).of_run hgather
    have hu : u.Families (SlotsOf s.shape size) :=
      hgrows.keeps_families hs fun _ _ => slotsOf_starts hsize
    have hread := readFrom_of_run hgather
    obtain ⟨scores, prediction, himproves⟩ := improve_eq_ok himprove
    have husers := hu _ _ hread.users userIntercept rfl
    have hitems := hu _ _ hread.items itemIntercept rfl
    refine Store.families_accept hu ?_ ?_ ?_
    · rintro _ ⟨⟩
      exact husers.updateFamily hitems.zero himproves.users
    · rintro _ ⟨⟩
      exact hitems.updateFamily husers.zero himproves.items
    · intro e he intercept hrole
      obtain ⟨x, -, hterm, hkey, -⟩ := himproves.exists_term hread he
      rw [hkey, (sideTerms_spec hterm).2.1] at hrole
      cases hrole

/-- All families of factors have their reserved entries after every run. -/
theorem slots_after (l : Learner α) {shape : Shape α} {size : Nat}
    (hsize : shape.factorSize.count = .ok (size : Int)) (draws : Draws α)
    (actions : List (Action α)) :
    (l.after actions (.create shape draws)).Families (SlotsOf shape size) := by
  have hboth : (l.after actions (.create shape draws)).shape = shape ∧
      (l.after actions (.create shape draws)).Families (SlotsOf shape size) := by
    refine after_induction (P := fun t => t.shape = shape ∧ t.Families (SlotsOf shape size))
      ⟨rfl, Store.families_create _ shape draws⟩ ?_ actions
    rintro s t ⟨rfl, hs⟩ hchange
    exact ⟨hchange.shape_eq, hchange.slots hsize hs⟩
  exact hboth.2

end Learner

/-! ## Products -/

section Products

variable {K : Type} [ExactScalar K]

/-- The product of a user and an item vector is the sum of their biases and of
the products of the entries that are not reserved. -/
theorem Vec.dot_of_slots {count size : Nat} {users items : Family K}
    (husers : FactorSlots count size userIntercept users)
    (hitems : FactorSlots count size itemIntercept items) {v w : Vec K} (hv : v ∈ users)
    (hw : w ∈ items) :
    v.dot w = .ok (w.entry 1 + v.entry 2 +
      ∑ j ∈ Finset.range size, v.entry (j + 3) * w.entry (j + 3)) := by
  have hone : v.entry 1 = 1 := husers.one v hv
  have htwo : w.entry 2 = 1 := hitems.one w hw
  have hproduct : v.HasProduct w :=
    ⟨(husers.size v hv).trans (hitems.size w hw).symm, isListable_of_dense (husers.dense v hv),
      isListable_of_dense (hitems.dense w hw)⟩
  rw [dot_eq_sum hproduct (hitems.size w hw),
    Finset.sum_range_succ', Finset.sum_range_succ', Finset.sum_range_succ', husers.zero v hv]
  congr 1
  simp only [Nat.add_assoc, Nat.reduceAdd]
  rw [hone, htwo, mul_one, one_mul, zero_mul, add_zero, add_assoc, add_comm (v.entry 2), add_comm]

end Products

/-- After every run the factors have their reserved entries, whatever the
arithmetic does elsewhere.  In exact arithmetic the product of a user and an
item is therefore the sum of both biases and of the products of the other
entries. -/
theorem factors_keep_slots :
    (∀ (α : Type) [Scalar α] [ZeroLaw α] (l : Learner α) (shape : Shape α) (draws : Draws α)
        (size : Nat), shape.factorSize.count = .ok (size : Int) →
      ∀ (actions : List (Action α)) (owner : Id) (family : Family α),
        ((l.after actions (.create shape draws)).families.find? ⟨.userFactors, owner⟩ =
            some family → FactorSlots shape.vectorCount size userIntercept family) ∧
          ((l.after actions (.create shape draws)).families.find? ⟨.itemFactors, owner⟩ =
            some family → FactorSlots shape.vectorCount size itemIntercept family)) ∧
      ∀ (K : Type) [ExactScalar K] (l : Learner K) (shape : Shape K) (draws : Draws K)
        (size : Nat), shape.factorSize.count = .ok (size : Int) →
      ∀ (actions : List (Action K)) (user item : Id) (users items : Family K),
        (l.after actions (.create shape draws)).families.find? ⟨.userFactors, user⟩ =
          some users →
        (l.after actions (.create shape draws)).families.find? ⟨.itemFactors, item⟩ =
          some items →
        ∀ (c : Nat) (v w : Vec K), users[c]? = some v → items[c]? = some w →
          v.dot w = .ok (w.entry 1 + v.entry 2 +
            ∑ j ∈ Finset.range size, v.entry (j + 3) * w.entry (j + 3)) := by
  constructor
  · intro α _ _ l shape draws size hsize actions owner family
    have hslots := l.slots_after hsize draws actions
    refine ⟨fun hfind => ?_, fun hfind => ?_⟩
    · exact hslots _ family hfind userIntercept rfl
    · exact hslots _ family hfind itemIntercept rfl
  · intro K _ l shape draws size hsize actions user item users items husers hitems c v w hv hw
    have hslots := l.slots_after hsize draws actions
    exact Vec.dot_of_slots (hslots _ users husers userIntercept rfl)
      (hslots _ items hitems itemIntercept rfl) (List.mem_of_getElem? hv)
      (List.mem_of_getElem? hw)

/-- A user and an item after a refused and an accepted step. -/
theorem factors_keep_slots_of_run :
    let l : Learner Float := ⟨.ofHypothesis .logistic (.ofInt 1), .ofInt 0, .ofInt 0, .ofInt 0,
      .flag true, .factors⟩
    let shape : Shape Float := ⟨.ofInt 0, 2, false, .ofInt 0, .ofInt 0, .ofInt 0⟩
    let s := l.after [.train (.int 1) (.int 7) (.integer 4), .train (.int 1) (.int 7) (.integer 1)]
      (.create shape (.ofSource fun _ => 0))
    ∃ family, s.families.find? ⟨.userFactors, .int 1⟩ = some family ∧
      FactorSlots 1 0 userIntercept family := by
  intro l shape s
  have hfind : (s.families.find? ⟨.userFactors, .int 1⟩).isSome = true := by decide +kernel
  obtain ⟨family, hfamily⟩ := Option.isSome_iff_exists.1 hfind
  exact ⟨family, hfamily, (factors_keep_slots.1 Float l shape (.ofSource fun _ => 0) 0 rfl _ _
    family).1 hfamily⟩

end LatentFactors
