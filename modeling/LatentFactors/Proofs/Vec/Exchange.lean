import LatentFactors.Proofs.Vec.Product

/-!
# Exchanging the two sides of a factor vector

A factor vector of a user has the constant one at index one and the bias of the
user at index two, and one of an item has them the other way round.
`Vec.exchanged` makes one into the other: it exchanges entries one and two of a
dense vector.  An index goes to `exchangedIndex`, and everything that is read
from an exchanged vector is read from the vector at the exchanged index.

Exchanging twice does nothing, and the product of two vectors is that of the
exchanged ones (`Vec.dot_exchanged`).  A family is exchanged vector by vector
(`Family.exchanged`).
-/

namespace LatentFactors

/-- Where an index goes when indices one and two change places. -/
def exchangedIndex : Nat → Nat
  | 0 => 0
  | 1 => 2
  | 2 => 1
  | i + 3 => i + 3

@[simp] theorem exchangedIndex_exchangedIndex :
    ∀ i : Nat, exchangedIndex (exchangedIndex i) = i
  | 0 | 1 | 2 | _ + 3 => rfl

theorem exchangedIndex_eq_zero_iff : ∀ {i : Nat}, exchangedIndex i = 0 ↔ i = 0
  | 0 | 1 | 2 | _ + 3 => by simp [exchangedIndex]

/-- Above index two every index stays where it is. -/
theorem exchangedIndex_of_lt : ∀ {i : Nat}, 2 < i → exchangedIndex i = i
  | _ + 3, _ => rfl

theorem exchangedIndex_lt_iff {n : Nat} (h : 2 < n) : ∀ {i : Nat}, exchangedIndex i < n ↔ i < n
  | 0 | _ + 3 => Iff.rfl
  | 1 => by
    show 2 < n ↔ 1 < n
    omega
  | 2 => by
    show 1 < n ↔ 2 < n
    omega

namespace Vec

variable {α : Type}

/-- The vector with its entries one and two exchanged, if it is dense. -/
def exchanged : Vec α → Vec α
  | dense xs => dense (xs.swapIfInBounds 1 2)
  | sparse v => sparse v

/-- A dense vector with room for the reserved entries. -/
structure IsFactor (v : Vec α) : Prop where
  dense : v.isSparse = false
  room : 2 < v.size

@[simp] theorem size_exchanged (v : Vec α) : v.exchanged.size = v.size := by
  cases v with
  | dense xs => simp [exchanged]
  | sparse v => rfl

@[simp] theorem isSparse_exchanged (v : Vec α) : v.exchanged.isSparse = v.isSparse := by
  cases v <;> rfl

@[simp] theorem exchanged_exchanged (v : Vec α) : v.exchanged.exchanged = v := by
  cases v with
  | dense xs =>
    refine congrArg dense (Array.ext (by simp) fun i hi hi' => ?_)
    grind
  | sparse v => rfl

theorem IsFactor.isListable {v : Vec α} (h : v.IsFactor) : v.IsListable :=
  isListable_of_dense h.dense

theorem IsFactor.exchanged {v : Vec α} (h : v.IsFactor) : v.exchanged.IsFactor :=
  ⟨(isSparse_exchanged v).trans h.dense, (size_exchanged v).symm ▸ h.room⟩

variable [Scalar α]

theorem entry_exchanged {v : Vec α} (h : v.IsFactor) (i : Nat) :
    v.exchanged.entry i = v.entry (exchangedIndex i) := by
  obtain ⟨hdense, hroom⟩ := h
  cases v with
  | sparse v => cases hdense
  | dense xs =>
    rw [size_dense] at hroom
    show (xs.swapIfInBounds 1 2)[i]?.getD 0 = xs[exchangedIndex i]?.getD 0
    congr 1
    match i with
    | 0 | 1 | 2 | i + 3 => grind [exchangedIndex]

theorem get_exchanged {v : Vec α} (h : v.IsFactor) (i : Nat) :
    v.exchanged.get (i : Int) = v.get (exchangedIndex i : Nat) := by
  by_cases hi : i < v.size
  · have hi' : i < v.exchanged.size := by rwa [size_exchanged]
    rw [get_natCast hi', get_natCast ((exchangedIndex_lt_iff h.room).2 hi), entry_exchanged h]
  · -- Outside of the vector an index stays where it is.
    have hle : v.size ≤ i := Nat.le_of_not_lt hi
    have hsame : exchangedIndex i = i := exchangedIndex_of_lt (h.room.trans_le hle)
    have hle' : v.exchanged.size ≤ i := by rwa [size_exchanged]
    rw [hsame, get, get, place?_of_size_le hle, place?_of_size_le hle']
    cases v <;> rfl

theorem mem_support_exchanged [ZeroLaw α] {v : Vec α} (h : v.IsFactor) {i : Nat} :
    i ∈ v.exchanged.support ↔ exchangedIndex i ∈ v.support := by
  rw [mem_support, mem_support, size_exchanged, entry_exchanged h,
    exchangedIndex_lt_iff h.room]

/-- Dense vectors of one size are told apart by their entries. -/
theorem ext_of_dense {v w : Vec α} (hv : v.isSparse = false) (hw : w.isSparse = false)
    (hsize : v.size = w.size) (hentry : ∀ i, v.entry i = w.entry i) : v = w := by
  cases v with
  | sparse v => cases hv
  | dense xs =>
    cases w with
    | sparse w => cases hw
    | dense ys =>
      refine congrArg dense (Array.ext hsize fun i hi hi' => ?_)
      have hi := hentry i
      rw [entry_dense, entry_dense] at hi
      simpa [*] using hi

/-- In exact arithmetic the product does not change when both vectors are
exchanged and change sides. -/
theorem dot_exchanged {K : Type} [ExactScalar K] {v w : Vec K} (hv : v.IsFactor)
    (hw : w.IsFactor) (hsize : v.size = w.size) : w.exchanged.dot v.exchanged = v.dot w := by
  have hsize' : w.exchanged.size = v.exchanged.size := by
    rw [size_exchanged, size_exchanged, hsize]
  rw [dot_eq_sum ⟨hsize, hv.isListable, hw.isListable⟩ rfl,
    dot_eq_sum ⟨hsize', hw.exchanged.isListable, hv.exchanged.isListable⟩
      ((size_exchanged v).trans hsize)]
  congr 1
  refine Finset.sum_nbij' exchangedIndex exchangedIndex ?_ ?_ ?_ ?_ ?_
  · exact fun i hi => Finset.mem_range.2 ((exchangedIndex_lt_iff hw.room).2 (Finset.mem_range.1 hi))
  · exact fun i hi => Finset.mem_range.2 ((exchangedIndex_lt_iff hw.room).2 (Finset.mem_range.1 hi))
  · exact fun i _ => exchangedIndex_exchangedIndex i
  · exact fun i _ => exchangedIndex_exchangedIndex i
  · intro i _
    rw [entry_exchanged hw, entry_exchanged hv, mul_comm]

end Vec

/-! ## Families -/

variable {α : Type}

/-- The family with all its vectors exchanged. -/
def Family.exchanged (family : Family α) : Family α := family.map Vec.exchanged

/-- A family of dense vectors with room for the reserved entries. -/
def Family.AreFactors (family : Family α) : Prop := ∀ v ∈ family, v.IsFactor

namespace Family

@[simp] theorem length_exchanged (family : Family α) :
    (exchanged family).length = family.length := List.length_map _

@[simp] theorem exchanged_exchanged (family : Family α) :
    exchanged (exchanged family) = family := by
  rw [exchanged, exchanged, List.map_map]
  refine (List.map_congr_left fun v _ => ?_).trans (List.map_id _)
  exact Vec.exchanged_exchanged v

@[simp] theorem getElem?_exchanged (family : Family α) (c : Nat) :
    (exchanged family)[c]? = family[c]?.map Vec.exchanged := List.getElem?_map

theorem nth_exchanged {family : Family α} {c : Nat} {v : Vec α}
    (h : (Outcome.nth family c : Outcome α (Vec α)) = .ok v) :
    (Outcome.nth (exchanged family) c : Outcome α (Vec α)) = .ok v.exchanged := by
  rw [Outcome.nth_eq_ok_iff] at h ⊢
  rw [getElem?_exchanged, h, Option.map_some]

/-- What is done with one vector of an exchanged family is done with the exchanged
vector of the family. -/
theorem bind_nth_exchanged {β : Type} {family : Family α} {k k' : Vec α → Outcome α β} (c : Nat)
    (h : ∀ v ∈ family, k v.exchanged = k' v) :
    Outcome.nth (exchanged family) c >>= k = Outcome.nth family c >>= k' := by
  rw [Outcome.nth, Outcome.nth, getElem?_exchanged]
  cases hv : family[c]? with
  | none => rfl
  | some v => exact h v (List.mem_of_getElem? hv)

end Family

end LatentFactors
