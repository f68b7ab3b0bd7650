import LatentFactors.Proofs.Arithmetic.Rational
import LatentFactors.Proofs.Numeral
import LatentFactors.Proofs.Stateful
import LatentFactors.Proofs.Vec.Product
import LatentFactors.Proofs.Vec.Writing
import LatentFactors.Vec.Program

/-!
# Programs do not see how vectors are stored

Two programs are alike if they differ at most in how their vectors are written down, densely
or sparsely (`Vec.Instruction.Alike`).  In exact arithmetic they give the same answers and
fail alike at every step (`Vec.Instruction.runAll_alike`), because their registers hold
`Vec.Interchangeable` vectors all along, and every operation gives the same for those.

There is one exception.  An index that only a word without a sign holds is too large for a
dense vector, and outside of a sparse one like any other (`Vec.Instruction.Agrees`).  Vectors
that differ in kind have a size that arrays can have, so the limits beyond it do not tell them
apart (`Vec.Interchangeable`).

Sparse vectors that programs make store no zeros (`Vec.Instruction.storesNoZero_runAll`).
-/

namespace LatentFactors

theorem SparseVec.eq_or_mem_of_mem_insertEntry {α : Type} {i : Nat} {x : α} {e : Nat × α}
    {entries : List (Nat × α)} (h : e ∈ insertEntry i x entries) :
    e = (i, x) ∨ e ∈ entries := by
  induction entries with
  | nil => exact .inl (List.mem_singleton.1 h)
  | cons a rest ih =>
    rw [insertEntry] at h
    split at h
    · exact List.mem_cons.1 h
    · split at h
      · rcases List.mem_cons.1 h with rfl | h
        · exact .inr List.mem_cons_self
        · exact (ih h).imp_right (List.mem_cons_of_mem a)
      · exact (List.mem_cons.1 h).imp_right (List.mem_cons_of_mem a)

namespace Vec

/-! ## Vectors with the same entries -/

section Views

variable {α : Type} [Scalar α]

/-- The entries of a vector in order, whatever its kind. -/
theorem toList_eq_map_entry (v : Vec α) : v.toList = (List.range v.size).map v.entry := by
  cases v with
  | dense xs =>
    refine List.ext_getElem? fun i => ?_
    show xs.toList[i]? = ((List.range xs.size).map (dense xs).entry)[i]?
    by_cases hi : i < xs.size
    · rw [List.getElem?_map, List.getElem?_range hi, Option.map_some, entry_dense,
        Array.getElem?_toList, Array.getElem?_eq_getElem hi]
      rfl
    · rw [List.getElem?_eq_none (by simpa using hi), List.getElem?_eq_none (by simpa using hi)]
  | sparse v => rfl

@[simp] theorem size_zeroLike (v : Vec α) : v.zeroLike.size = v.size := by
  cases v with
  | dense xs => exact Array.size_replicate
  | sparse v => rfl

@[simp] theorem isSparse_zeroLike (v : Vec α) : v.zeroLike.isSparse = v.isSparse := by
  cases v <;> rfl

theorem entry_zeroLike (v : Vec α) (i : Nat) : v.zeroLike.entry i = 0 := by
  cases v with
  | dense xs =>
    rw [zeroLike, entry_dense, Array.getElem?_replicate]
    split <;> rfl
  | sparse v => rfl

namespace Interchangeable

variable {v w : Vec α}

/-- Whether two vectors have the same entries can be computed. -/
instance [DecidableEq α] : Decidable (Interchangeable v w) :=
  decidable_of_iff (w.size = v.size ∧ (∀ i < v.size, w.entry i = v.entry i) ∧
      (w.isSparse = v.isSparse ∨ (v.size : Int) < arrayLimit))
    ⟨fun h => ⟨h.1, h.2.1, h.2.2⟩, fun h => ⟨h.size, h.entry, h.kind⟩⟩

theorem toList_eq (h : Interchangeable v w) : w.toList = v.toList := by
  rw [toList_eq_map_entry, toList_eq_map_entry, h.size]
  exact List.map_congr_left fun i hi => h.entry i (List.mem_range.1 hi)

theorem zeroLike (h : Interchangeable v w) : Interchangeable v.zeroLike w.zeroLike := by
  refine ⟨?_, fun i _ => ?_, ?_⟩
  · rw [size_zeroLike, size_zeroLike, h.size]
  · rw [entry_zeroLike, entry_zeroLike]
  · rw [isSparse_zeroLike, isSparse_zeroLike, size_zeroLike]
    exact h.kind

/-- The entries of one of two vectors are listed exactly if those of the other are. -/
theorem nonzeroIndices_eq [ZeroLaw α] (h : Interchangeable v w) :
    w.nonzeroIndices = v.nonzeroIndices := by
  rw [nonzeroIndices, nonzeroIndices, h.checkListable_eq, h.support_eq]

theorem toDense_eq (h : Interchangeable v w) : w.toDense = v.toDense := by
  rw [toDense, toDense, h.checkListable_eq, h.toList_eq, h.size]
  refine bind_congr fun _ => ?_
  rcases h.kind with hkind | hroom
  · rw [hkind]
  · rw [checkArray_natCast hroom]
    cases w.isSparse <;> cases v.isSparse <;> rfl

end Interchangeable

end Views

variable {K : Type} [ExactScalar K]

/-! ## Reading and writing -/

theorem Interchangeable.set {v w : Vec K} (h : Interchangeable v w) {i : Nat} (x : K)
    (hv : i < v.size) (hw : i < w.size) : Interchangeable (v.set i x hv) (w.set i x hw) := by
  refine ⟨?_, fun j hj => ?_, ?_⟩
  · rw [size_set, size_set, h.size]
  · rw [size_set] at hj
    rw [entry_set, entry_set, kept_eq, kept_eq, h.entry j hj]
  · rw [isSparse_set, isSparse_set, size_set]
    exact h.kind

theorem get_of_place {v : Vec K} {i : Int} {place : Nat} (h : place? v.size i = some place) :
    v.get i = .ok (v.entry place) := by
  rw [get, h]

theorem get_of_outside {v : Vec K} {i : Int} (h : place? v.size i = none) :
    v.get i = .error (v.outside i) := by
  rw [get, h]

/-- In exact arithmetic every number is written where the index has a place. -/
theorem write_of_place {v : Vec K} {i : Int} {y : Numeral K} {place : Nat}
    (h : place? v.size i = some place) :
    v.write i y = .ok (v.set place y.value (place?_lt h)) :=
  write_eq_ok_iff.2 ⟨place, h, ⟨y.value, Outcome.real_eq y⟩, rfl⟩

theorem write_of_outside {v : Vec K} {i : Int} {y : Numeral K} (h : place? v.size i = none) :
    v.write i y = .error (v.outside i) := by
  have hput : v.put i y.value = .error (v.outside i) := by
    rw [put]
    split
    · next place hplace =>
      rw [h] at hplace
      cases hplace
    · rfl
  rw [write, hput]
  rfl

/-! ## Products -/

theorem dot_comm_eq_ok {v w : Vec K} {x : K} : v.dot w = .ok x ↔ w.dot v = .ok x := by
  by_cases h : v.HasProduct w
  · rw [dot_eq_sum h rfl, dot_eq_sum h.symm h.size]
    simp only [mul_comm]
  · have hfails {v w : Vec K} (hne : ¬v.HasProduct w) : v.dot w ≠ .ok x := fun hx =>
      hne (exists_dot_iff.1 ⟨x, hx⟩)
    exact iff_of_false (hfails h) (hfails (mt HasProduct.symm h))

/-- A vector whose entries are the sums of the entries of two vectors of its size. -/
structure IsSum (u v sum : Vec K) : Prop where
  left : u.size = sum.size
  right : v.size = sum.size
  entry (i : Nat) (h : i < sum.size) : sum.entry i = u.entry i + v.entry i

theorem IsSum.dot_eq_ok {u v sum w : Vec K} {x y : K} (h : IsSum u v sum)
    (hlistable : sum.IsListable) (hu : u.dot w = .ok x) (hv : v.dot w = .ok y) :
    sum.dot w = .ok (x + y) := by
  have hproductLeft := exists_dot_iff.1 ⟨x, hu⟩
  have hproductRight := exists_dot_iff.1 ⟨y, hv⟩
  have hsum : w.size = sum.size := hproductLeft.size.symm.trans h.left
  rw [dot_eq_sum hproductLeft hsum] at hu
  rw [dot_eq_sum hproductRight hsum] at hv
  cases hu
  cases hv
  rw [dot_eq_sum ⟨hsum.symm, hlistable, hproductLeft.right⟩ hsum, ← Finset.sum_add_distrib]
  refine congrArg Except.ok (Finset.sum_congr rfl fun j hj => ?_)
  rw [h.entry j (Finset.mem_range.1 hj), add_mul]

/-! ## Programs that are alike -/

/-- Two ways of writing down the same vector, both of them valid. -/
def Literal.Alike (a b : Literal K) : Prop :=
  ∃ v w, a.vec = .ok v ∧ b.vec = .ok w ∧ Interchangeable v w

/-- Every number can be written to a dense vector as it is. -/
private theorem dense_vec_aux (xs : List K) :
    (Literal.dense (xs.map .real) : Literal K).vec = .ok (dense xs.toArray) := by
  have hxs : (xs.map Numeral.real).mapM Outcome.real = (.ok xs : Outcome K (List K)) := by
    rw [Outcome.mapM_eq_ok_iff, List.forall₂_map_left_iff, List.forall₂_same]
    exact fun x _ => rfl
  rw [Literal.vec, ofNumerals, hxs]
  rfl

omit [ExactScalar K] in
private theorem lastNumber_range_aux (f : Nat → K) {n place : Nat} (h : place < n) :
    lastNumber ((List.range n).map fun (i : Nat) => ((i : Int), f i)) place = some (f place) := by
  have hmem : ((place : Int), f place) ∈
      ((List.range n).map fun (i : Nat) => ((i : Int), f i)).filter (·.1 = (place : Int)) :=
    List.mem_filter.2 ⟨List.mem_map.2 ⟨place, List.mem_range.2 h, rfl⟩, decide_eq_true rfl⟩
  obtain ⟨e, he⟩ := Option.ne_none_iff_exists'.1
    (mt List.getLast?_eq_none_iff.1 (List.ne_nil_of_mem hmem))
  obtain ⟨hlisted, hat⟩ := List.mem_filter.1 (List.mem_of_getLast? he)
  obtain ⟨i, -, rfl⟩ := List.mem_map.1 hlisted
  obtain rfl : i = place := Int.ofNat.inj (of_decide_eq_true hat)
  rw [lastNumber, he]
  rfl

/-- What a literal writes down can be written down densely and sparsely, if there are arrays
of its size. -/
theorem Literal.exists_alike {literal : Literal K} {v : Vec K} (h : literal.vec = .ok v)
    (hsize : (v.size : Int) < arrayLimit) (sparse : Bool) :
    ∃ other w, literal.Alike other ∧ other.vec = .ok w ∧ w.isSparse = sparse := by
  cases sparse with
  | false =>
    have hw := dense_vec_aux v.toList
    refine ⟨_, _, ⟨v, _, h, hw, ?_, fun i hi => ?_, .inr hsize⟩, hw, rfl⟩
    · show v.toList.toArray.size = v.size
      rw [List.size_toArray, toList_eq_map_entry, List.length_map, List.length_range]
    · rw [entry_dense, List.getElem?_toArray, toList_eq_map_entry, List.getElem?_map,
        List.getElem?_range hi]
      rfl
  | true =>
    let entries := (List.range v.size).map fun (i : Nat) => ((i : Int), v.entry i)
    have hinside : ∀ e ∈ entries, (0 : Int) ≤ e.1 ∧ e.1 < v.size := by
      intro e he
      obtain ⟨i, hi, rfl⟩ := List.mem_map.1 he
      exact ⟨Int.natCast_nonneg i, Int.ofNat_lt.2 (List.mem_range.1 hi)⟩
    obtain ⟨w, hw⟩ := exists_ofEntries_iff.2 ⟨Int.natCast_nonneg v.size, fun e he =>
      ⟨by have := hinside e he; omega, (hinside e he).2⟩⟩
    obtain ⟨hsparse, hsame, hentry⟩ := entry_ofEntries hw
    refine ⟨.sparse v.size _, w, ⟨v, w, h, hw, Int.ofNat.inj hsame, fun i hi => ?_, .inr hsize⟩,
      hw, hsparse⟩
    have hlast : lastNumber entries i = some (v.entry i) := lastNumber_range_aux v.entry hi
    obtain ⟨index, hindex, hstored, hnone⟩ := hentry i (Int.ofNat.inj hsame ▸ hi)
    -- No index is negative, so the last number of the place is the one of its index.
    obtain rfl | rfl := hindex
    · rw [hstored, hlast]
      exact kept_eq (.sparse (.zero 0)) (v.entry i)
    · have hnegative : lastNumber entries (i - v.size) = none :=
        lastNumber_eq_none_iff.2 fun e he heq => by
          have := (hinside e he).1
          omega
      rw [(hnone hnegative).1] at hlast
      cases hlast

/-- Two instructions that differ at most in how a vector is written down.  The one that asks
for the kind of a vector is left out. -/
inductive Instruction.Alike : Instruction K → Instruction K → Prop where
  | make (name : String) {a b : Literal K} (h : a.Alike b) : Alike (.make name a) (.make name b)
  | same {i : Instruction K} (h : ∀ name, i ≠ .isSparse name) : Alike i i

/-- Two answers that are the same, or vectors with the same entries. -/
inductive Answer.Alike : Answer K → Answer K → Prop where
  | vectors {v w : Vec K} (h : Interchangeable v w) : Alike (.vector v) (.vector w)
  | same (a : Answer K) : Alike a a

/-- Registers that hold the same vectors under every name. -/
def Registers.Alike (rs rs' : Registers K) : Prop :=
  ∀ name, Interchangeable (Instruction.named rs name) (Instruction.named rs' name)

namespace Instruction

/-- The index that an instruction reads or writes at. -/
def index? : Instruction K → Option Int
  | put _ i _ | get _ i => some i
  | _ => none

/-- Two outcomes of an instruction that do not tell kinds of vectors apart: the same answer
or the same fault.  An index that only a word without a sign holds may be refused as too
large or as any other. -/
inductive Agrees (instruction : Instruction K) :
    Outcome K (Answer K) → Outcome K (Answer K) → Prop where
  | answers {a b : Answer K} (h : a.Alike b) : Agrees instruction (.ok a) (.ok b)
  | faults (e : Fault K) : Agrees instruction (.error e) (.error e)
  | unsigned {i : Int} {e e' : Fault K} (hi : instruction.index? = some i)
      (hlow : signedLimit ≤ i) (hhigh : i < unsignedLimit)
      (he : e ∈ [.tooLarge, .indexOutOfRange]) (he' : e' ∈ [.tooLarge, .indexOutOfRange]) :
      Agrees instruction (.error e) (.error e')

/-- Outcomes of the instructions of a program that agree one by one. -/
inductive AgreeAll : List (Instruction K) → List (Outcome K (Answer K)) →
    List (Outcome K (Answer K)) → Prop where
  | nil : AgreeAll [] [] []
  | cons {i : Instruction K} {rest : List (Instruction K)} {a b : Outcome K (Answer K)}
      {as bs : List (Outcome K (Answer K))} (h : i.Agrees a b) (hrest : AgreeAll rest as bs) :
      AgreeAll (i :: rest) (a :: as) (b :: bs)

/-! ## One step -/

omit [ExactScalar K] in
theorem indexFault_eq (i : Int) : (indexFault i : Fault K) =
    if signedLimit ≤ i ∧ i < unsignedLimit then .tooLarge else .indexOutOfRange := by
  have hwide : (Width.unsigned.fits i && !Width.signed.fits i) = true ↔
      signedLimit ≤ i ∧ i < unsignedLimit := by
    rw [Width.fits, Width.fits, Bool.and_eq_true, Bool.and_eq_true, Bool.not_eq_true',
      Bool.and_eq_false_iff, decide_eq_true_iff, decide_eq_true_iff, decide_eq_false_iff_not,
      decide_eq_false_iff_not, signedLimit, unsignedLimit]
    omega
  rw [indexFault]
  by_cases h : signedLimit ≤ i ∧ i < unsignedLimit
  · rw [if_pos h, if_pos (hwide.2 h)]
  · rw [if_neg h, if_neg (mt hwide.1 h)]

omit [ExactScalar K] in
/-- An index that only a word without a sign holds is refused by the kind of the vector. -/
theorem outside_of_unsigned (v : Vec K) {i : Int} (h : signedLimit ≤ i ∧ i < unsignedLimit) :
    v.outside i = if v.isSparse then .indexOutOfRange else .tooLarge := by
  cases v with
  | dense xs => rw [outside, indexFault_eq, if_pos h, Vec.isSparse, if_neg Bool.false_ne_true]
  | sparse v => rfl

omit [ExactScalar K] in
theorem outside_of_not_unsigned (v : Vec K) {i : Int}
    (h : ¬ (signedLimit ≤ i ∧ i < unsignedLimit)) : v.outside i = .indexOutOfRange := by
  cases v with
  | dense xs => rw [outside, indexFault_eq, if_neg h]
  | sparse v => rfl

/-- Two vectors refuse an index alike. -/
theorem agrees_outside {instruction : Instruction K} {i : Int}
    (hi : instruction.index? = some i) (v w : Vec K) :
    instruction.Agrees (.error (v.outside i)) (.error (w.outside i)) := by
  by_cases hwide : signedLimit ≤ i ∧ i < unsignedLimit
  · have hmem (u : Vec K) : u.outside i ∈ [Fault.tooLarge, .indexOutOfRange] := by
      rw [outside_of_unsigned u hwide]
      split <;> simp
    exact .unsigned hi hwide.1 hwide.2 (hmem v) (hmem w)
  · rw [outside_of_not_unsigned v hwide, outside_of_not_unsigned w hwide]
    exact .faults _

omit [ExactScalar K] in
theorem named_insert (rs : Registers K) (name other : String) (v : Vec K) :
    named (rs.insert name v) other = if name == other then v else named rs other := by
  rw [named, Table.find?_insert]
  split <;> rfl

theorem insert_alike {rs rs' : Registers K} (h : rs.Alike rs') (name : String) {v w : Vec K}
    (hv : Interchangeable v w) : Registers.Alike (rs.insert name v) (rs'.insert name w) := by
  intro other
  rw [named_insert, named_insert]
  split
  · exact hv
  · exact h other

/-- Two effects that change registers alike and give answers that are alike. -/
def EffectAlike (effect effect' : Answer K × Option (String × Vec K)) : Prop :=
  effect.1.Alike effect'.1 ∧
    Option.Rel (fun u u' => u.1 = u'.1 ∧ Interchangeable u.2 u'.2) effect.2 effect'.2

/-- Effects that are alike are all that a step needs. -/
theorem run_alike_of_effects {i j : Instruction K} {rs rs' : Registers K} (hrs : rs.Alike rs')
    (h : Outcome.Agree EffectAlike (i.effect rs) (j.effect rs')) :
    i.Agrees (i.run rs).1 (j.run rs').1 ∧ Registers.Alike (i.run rs).2 (j.run rs').2 := by
  rw [run, run]
  generalize i.effect rs = effect at h
  generalize j.effect rs' = effect' at h
  cases h with
  | ok h =>
    obtain ⟨hanswer, hupdate⟩ := h
    rename_i b c
    obtain ⟨a, update⟩ := b
    obtain ⟨a', update'⟩ := c
    cases hupdate with
    | none => exact ⟨.answers hanswer, hrs⟩
    | some hnamed =>
      obtain ⟨hname, hvec⟩ := hnamed
      rename_i u u'
      obtain ⟨name, v⟩ := u
      obtain ⟨name', w⟩ := u'
      obtain rfl : name = name' := hname
      exact ⟨.answers hanswer, insert_alike hrs name hvec⟩
  | error e => exact ⟨.faults e, hrs⟩

/-- Reading and writing at an index are the only steps that can fail in two ways: where the
index has no place, it is refused by the kind of the vector. -/
theorem run_alike_of_index {i : Instruction K} {index : Int} (name : String)
    {rs rs' : Registers K} (hrs : rs.Alike rs') (hindex : i.index? = some index)
    (houtside : ∀ rs : Registers K, place? (named rs name).size index = none →
      i.effect rs = .error ((named rs name).outside index))
    (hinside : ∀ place, place? (named rs name).size index = some place →
      place? (named rs' name).size index = some place →
      Outcome.Agree EffectAlike (i.effect rs) (i.effect rs')) :
    i.Agrees (i.run rs).1 (i.run rs').1 ∧ Registers.Alike (i.run rs).2 (i.run rs').2 := by
  have hsize := (hrs name).size
  cases hplace : place? (named rs name).size index with
  | none =>
    have hplace' : place? (named rs' name).size index = none := by rwa [hsize]
    rw [run_of_effect_error (houtside rs hplace), run_of_effect_error (houtside rs' hplace')]
    exact ⟨agrees_outside hindex _ _, hrs⟩
  | some place =>
    have hplace' : place? (named rs' name).size index = some place := by rwa [hsize]
    exact run_alike_of_effects hrs (hinside place hplace hplace')

/-- The step: alike instructions do not tell alike registers apart. -/
theorem run_alike {i j : Instruction K} (h : i.Alike j) {rs rs' : Registers K}
    (hrs : rs.Alike rs') :
    i.Agrees (i.run rs).1 (j.run rs').1 ∧ Registers.Alike (i.run rs).2 (j.run rs').2 := by
  cases h with
  | make name hliteral =>
    obtain ⟨v, w, hv, hw, hvw⟩ := hliteral
    refine run_alike_of_effects hrs ?_
    rw [effect, effect, hv, hw]
    exact .ok ⟨.vectors hvw, .some ⟨rfl, hvw⟩⟩
  | same hkind =>
    cases i with
    | make name literal =>
      refine run_alike_of_effects hrs ?_
      rw [effect, effect]
      cases literal.vec with
      | ok v => exact .ok ⟨.same _, .some ⟨rfl, .refl v⟩⟩
      | error e => exact .error e
    | put name index y =>
      refine run_alike_of_index name hrs rfl (fun rs hnone => ?_) fun place hplace hplace' => ?_
      · rw [effect, write_of_outside hnone]
        rfl
      · have hset := (hrs name).set y.value (place?_lt hplace) (place?_lt hplace')
        rw [effect, effect, write_of_place hplace, write_of_place hplace']
        exact .ok ⟨.vectors hset, .some ⟨rfl, hset⟩⟩
    | like name other =>
      exact run_alike_of_effects hrs
        (.ok ⟨.vectors (hrs other).zeroLike, .some ⟨rfl, (hrs other).zeroLike⟩⟩)
    | copy name other =>
      exact run_alike_of_effects hrs (.ok ⟨.vectors (hrs other), .some ⟨rfl, hrs other⟩⟩)
    | view name => exact run_alike_of_effects hrs (.ok ⟨.vectors (hrs name), .none⟩)
    | get name index =>
      refine run_alike_of_index name hrs rfl (fun rs hnone => ?_) fun place hplace hplace' => ?_
      · rw [effect, get_of_outside hnone]
        rfl
      · rw [effect, effect, get_of_place hplace, get_of_place hplace',
          (hrs name).entry place (place?_lt hplace)]
        exact .ok ⟨.same _, .none⟩
    | dot name other =>
      refine run_alike_of_effects hrs ?_
      rw [effect, effect, (hrs name).dot_congr (hrs other)]
      cases (named rs name).dot (named rs other) with
      | ok x => exact .ok ⟨.same _, .none⟩
      | error e => exact .error e
    | nonzero name =>
      refine run_alike_of_effects hrs ?_
      rw [effect, effect, (hrs name).nonzeroIndices_eq]
      cases (named rs name).nonzeroIndices with
      | ok is => exact .ok ⟨.same _, .none⟩
      | error e => exact .error e
    | size name =>
      refine run_alike_of_effects hrs ?_
      rw [effect, effect, (hrs name).size]
      exact .ok ⟨.same _, .none⟩
    | isSparse name => exact absurd rfl (hkind name)
    | entries name =>
      refine run_alike_of_effects hrs ?_
      rw [effect, effect, (hrs name).toDense_eq]
      cases (named rs name).toDense with
      | ok xs => exact .ok ⟨.same _, .none⟩
      | error e => exact .error e

/-- Alike programs give the same answers and fail alike, step by step. -/
theorem runAll_alike {p q : List (Instruction K)} (h : List.Forall₂ Alike p q)
    {rs rs' : Registers K} (hrs : rs.Alike rs') :
    AgreeAll p (runAll rs p).1 (runAll rs' q).1 ∧
      Registers.Alike (runAll rs p).2 (runAll rs' q).2 := by
  induction h generalizing rs rs' with
  | nil => exact ⟨.nil, hrs⟩
  | cons hi _ ih =>
    obtain ⟨hanswer, hnext⟩ := run_alike hi hrs
    obtain ⟨hanswers, hlast⟩ := ih hnext
    exact ⟨.cons hanswer hanswers, hlast⟩

end Instruction

/-- A step that fails changes nothing. -/
theorem Instruction.run_of_error {rs : Registers K} {i : Instruction K} {e : Fault K}
    (h : (i.run rs).1 = .error e) : (i.run rs).2 = rs := by
  rw [run] at h ⊢
  split at h
  · cases h
  · cases h
  · rfl

/-! ## Stored entries -/

/-- Whether a vector stores no zero; a dense one may. -/
def StoresNoZero : Vec K → Prop
  | dense _ => True
  | sparse v => ∀ e ∈ v.entries, e.2 ≠ 0

theorem StoresNoZero.set {v : Vec K} (h : v.StoresNoZero) {i : Nat} (x : K) (hi : i < v.size) :
    (v.set i x hi).StoresNoZero := by
  cases v with
  | dense xs => trivial
  | sparse v =>
    show ∀ e ∈ (SparseVec.set v i x hi).entries, e.2 ≠ 0
    unfold SparseVec.set
    split
    · next hx =>
      intro e he
      rcases SparseVec.eq_or_mem_of_mem_insertEntry he with rfl | he
      · exact Scalar.nonzero_iff.1 hx
      · exact h e he
    · exact fun e he => h e (List.mem_filter.1 he).1

theorem StoresNoZero.write {v w : Vec K} (h : v.StoresNoZero) {i : Int} {y : Numeral K}
    (hw : v.write i y = .ok w) : w.StoresNoZero := by
  obtain ⟨place, hplace, -, rfl⟩ := write_eq_ok_iff.1 hw
  exact h.set y.value (place?_lt hplace)

theorem storesNoZero_zeroLike (v : Vec K) : v.zeroLike.StoresNoZero := by
  cases v with
  | dense xs => trivial
  | sparse v => exact fun e he => nomatch he

/-- A vector that is written down stores no zero, even if zeros are written down. -/
theorem storesNoZero_of_literal {literal : Literal K} {v : Vec K} (h : literal.vec = .ok v) :
    v.StoresNoZero := by
  cases literal with
  | dense entries =>
    obtain ⟨xs, -, h⟩ := Outcome.bind_eq_ok.1 h
    cases h
    trivial
  | sparse size entries =>
    obtain ⟨zero, hzero, hv⟩ := Outcome.bind_eq_ok.1 h
    obtain ⟨-, rfl⟩ := sparseZero_eq_ok hzero
    have hstart : (sparse (.zero size.toNat) : Vec K).StoresNoZero := fun e he => nomatch he
    exact (Outcome.foldlM_follow (r := id) hstart (fun _ _ _ hc hd => ⟨hd, hc.write hd⟩) hv).2

namespace Instruction

theorem storesNoZero_of_effect {rs : Registers K} (h : ∀ name, (named rs name).StoresNoZero)
    {i : Instruction K} {answer : Answer K} {name : String} {v : Vec K}
    (heffect : i.effect rs = .ok (answer, some (name, v))) : v.StoresNoZero := by
  cases i with
  | make _ literal =>
    obtain ⟨w, hw, heffect⟩ := Outcome.bind_eq_ok.1 heffect
    cases heffect
    exact storesNoZero_of_literal hw
  | put other index y =>
    obtain ⟨w, hw, heffect⟩ := Outcome.bind_eq_ok.1 heffect
    cases heffect
    exact (h name).write hw
  | like _ other =>
    cases heffect
    exact storesNoZero_zeroLike _
  | copy _ other =>
    cases heffect
    exact h other
  | get _ _ | dot _ _ | nonzero _ | entries _ =>
    obtain ⟨_, -, heffect⟩ := Outcome.bind_eq_ok.1 heffect
    cases heffect
  | view _ | size _ | isSparse _ => cases heffect

theorem storesNoZero_run {rs : Registers K} (h : ∀ name, (named rs name).StoresNoZero)
    (i : Instruction K) (name : String) : (named (i.run rs).2 name).StoresNoZero := by
  rw [run]
  split
  · next answer other v heffect =>
    rw [named_insert]
    split
    · exact storesNoZero_of_effect h heffect
    · exact h name
  · exact h name
  · exact h name

/-- Programs keep it that no zero is stored. -/
theorem storesNoZero_runAll {rs : Registers K} (h : ∀ name, (named rs name).StoresNoZero)
    (p : List (Instruction K)) (name : String) : (named (runAll rs p).2 name).StoresNoZero := by
  induction p generalizing rs with
  | nil => exact h name
  | cons i rest ih => exact ih (storesNoZero_run h i)

end Instruction

theorem nonzeroIndices_of_not_isListable {v : Vec K} (h : ¬v.IsListable) :
    v.nonzeroIndices = .error .tooLarge := by
  rw [nonzeroIndices, checkListable, if_neg h]
  rfl

/-- The entries of a vector are listed where there is an array for them. -/
theorem toDense_eq_ok {v : Vec K} (h : v.isSparse = true → (v.size : Int) < arrayLimit) :
    v.toDense = .ok ((List.range v.size).map v.entry) := by
  have hlistable : v.IsListable := fun hsparse => (h hsparse).trans arrayLimit_lt_signedLimit
  rw [toDense, checkListable_of_isListable hlistable, Outcome.bind_ok, ← toList_eq_map_entry]
  cases hsparse : v.isSparse with
  | false => rfl
  | true => rw [if_pos rfl, checkArray_natCast (h hsparse), Outcome.bind_ok]; rfl

/-- Otherwise there is no such array, or not even a list of the indices. -/
theorem toDense_of_le {v : Vec K} (hsparse : v.isSparse = true)
    (h : arrayLimit ≤ (v.size : Int)) :
    v.toDense = .error (if v.IsListable then .noSize else .tooLarge) := by
  by_cases hlistable : v.IsListable
  · rw [toDense, checkListable_of_isListable hlistable, Outcome.bind_ok, if_pos hsparse,
      checkArray_of_le h, if_pos hlistable]
    rfl
  · rw [toDense, checkListable, if_neg hlistable, if_neg hlistable]
    rfl

open Instruction in
/-- How vectors are stored does not matter.

Every vector that is written down can be written down in both ways, as far as there are
arrays of its size.  Programs that differ in nothing else answer and fail alike, step by
step, and a step that fails changes nothing; only an index that is too large for a word with
a sign, but not for one without, is refused by dense and by sparse vectors in different
ways.

Products are symmetric and additive.  A sparse vector of a program stores every index once,
inside of the vector and with a nonzero entry.  Nonzero indices are listed in strictly
ascending order, if a word with a sign counts the entries of the vector.  A larger sparse
vector has no list of indices or entries and no products, and one that is larger than any
array has no list of entries. -/
theorem sparse_vectors_simulate_dense :
    (∀ (literal : Literal K) (v : Vec K), literal.vec = .ok v → (v.size : Int) < arrayLimit →
      ∀ sparse : Bool, ∃ other w, literal.Alike other ∧ other.vec = .ok w ∧
        w.isSparse = sparse) ∧
    (∀ p q : List (Instruction K), List.Forall₂ Instruction.Alike p q →
      AgreeAll p (runAll .empty p).1 (runAll .empty q).1 ∧
        Registers.Alike (runAll .empty p).2 (runAll .empty q).2) ∧
    (∀ (v : Vec K) (i : Int) (y : Numeral K), place? v.size i = none →
      signedLimit ≤ i ∧ i < unsignedLimit →
        v.get i = .error (if v.isSparse then .indexOutOfRange else .tooLarge) ∧
        v.write i y = .error (if v.isSparse then .indexOutOfRange else .tooLarge)) ∧
    (∀ (rs : Registers K) (i : Instruction K) (e : Fault K),
      (i.run rs).1 = .error e → (i.run rs).2 = rs) ∧
    (∀ (v w : Vec K) (x : K), v.dot w = .ok x ↔ w.dot v = .ok x) ∧
    (∀ (u v sum w : Vec K) (x y : K), IsSum u v sum → sum.IsListable → u.dot w = .ok x →
      v.dot w = .ok y → sum.dot w = .ok (x + y) ∧ w.dot sum = .ok (x + y)) ∧
    (∀ (p : List (Instruction K)) (name : String) (v : SparseVec K),
      (runAll .empty p).2.find? name = some (.sparse v) →
        (v.entries.map Prod.fst).Nodup ∧ ∀ e ∈ v.entries, e.1 < v.size ∧ e.2 ≠ 0) ∧
    (∀ v : Vec K, v.IsListable → ∃ is, v.nonzeroIndices = .ok is ∧ is.Pairwise (· < ·) ∧
      ∀ i, i ∈ is ↔ i < v.size ∧ v.entry i ≠ 0) ∧
    (∀ v : Vec K, ¬v.IsListable → v.nonzeroIndices = .error .tooLarge ∧
      ∀ w : Vec K, v.size = w.size → v.dot w = .error .tooLarge ∧ w.dot v = .error .tooLarge) ∧
    ∀ v : Vec K,
      ((v.isSparse = true → (v.size : Int) < arrayLimit) →
        v.toDense = .ok ((List.range v.size).map v.entry)) ∧
      (v.isSparse = true → arrayLimit ≤ (v.size : Int) →
        v.toDense = .error (if v.IsListable then .noSize else .tooLarge)) := by
  refine ⟨fun _ _ h hsize => Literal.exists_alike h hsize, fun p q h => ?_,
    fun v i y hplace hwide => ?_, fun _ _ _ => run_of_error, fun _ _ _ => dot_comm_eq_ok,
    fun u v sum w x y hsum hlistable hu hv => ?_, fun p name v hfind => ?_,
    fun v hv => ⟨v.support, nonzeroIndices_eq_ok_iff.2 ⟨hv, rfl⟩, v.sorted_support, fun i => ?_⟩,
    fun v hv => ⟨nonzeroIndices_of_not_isListable hv, fun w hsize => ⟨?_, ?_⟩⟩,
    fun v => ⟨toDense_eq_ok, toDense_of_le⟩⟩
  · exact runAll_alike h fun _ => .refl _
  · rw [get_of_outside hplace, write_of_outside hplace, outside_of_unsigned v hwide]
    exact ⟨rfl, rfl⟩
  · have hdot := hsum.dot_eq_ok hlistable hu hv
    exact ⟨hdot, dot_comm_eq_ok.1 hdot⟩
  · have hstart (name : String) : (named (.empty : Registers K) name).StoresNoZero := trivial
    have hstored := storesNoZero_runAll hstart p name
    rw [named, hfind] at hstored
    refine ⟨?_, fun e he => ⟨v.bounded e he, hstored e he⟩⟩
    exact (List.pairwise_map.2 v.sorted).imp Nat.ne_of_lt
  · rw [mem_support, Scalar.nonzero_iff]
  · exact dot_of_not_hasProduct hsize fun h => hv h.left
  · exact dot_of_not_hasProduct hsize.symm fun h => hv h.right

private theorem alike_of_decide_aux {a b : Literal ℚ}
    (h : ∃ v, a.vec = .ok v ∧ ∃ w, b.vec = .ok w ∧ Interchangeable v w) : a.Alike b := by
  obtain ⟨v, hv, w, hw, hvw⟩ := h
  exact ⟨v, w, hv, hw, hvw⟩

/-- A vector with two nonzero entries, written down densely, and sparsely with a negative index
and a zero.  Its last entry is overwritten by zero, an index outside is refused, and the
product is what is left. -/
theorem sparse_vectors_simulate_dense_rational :
    let rest : List (Instruction ℚ) := [.put "v" (-1) (.integer 0), .get "v" (-2),
      .put "v" 7 (.real 1), .nonzero "v", .dot "v" "v", .entries "v"]
    let p := .make "v" (.dense [.real 0, .real 2, .integer 3]) :: rest
    let q := .make "v" (.sparse 3 [(-1, .integer 3), (1, .real 2), (0, .real 0)]) :: rest
    List.Forall₂ Instruction.Alike p q ∧
    Instruction.AgreeAll p (Instruction.runAll .empty p).1 (Instruction.runAll .empty q).1 ∧
    (IsSum (.dense #[1, 2]) (.sparse (.zero 2)) (.dense #[(1 : ℚ), 2]) ∧
      (Vec.dense #[(1 : ℚ), 2]).IsListable ∧
      (Vec.dense #[1, 2]).dot (.dense #[3, (4 : ℚ)]) = .ok 11 ∧
      (Vec.sparse (.zero 2)).dot (.dense #[3, (4 : ℚ)]) = .ok 0) ∧
    (Vec.dense #[3, (4 : ℚ)]).dot (.dense #[1, 2]) = .ok (11 + 0) := by
  intro rest p q
  have hrest : List.Forall₂ Instruction.Alike rest rest := by
    refine List.forall₂_same.2 fun i hi => .same fun name hname => ?_
    subst hname
    simp [rest] at hi
  have hliteral : Literal.Alike (.dense [.real (0 : ℚ), .real 2, .integer 3])
      (.sparse 3 [(-1, .integer 3), (1, .real 2), (0, .real 0)]) :=
    alike_of_decide_aux (by decide +kernel)
  have halike : List.Forall₂ Instruction.Alike p q := .cons (.make "v" hliteral) hrest
  have hsum : IsSum (.dense #[1, 2]) (.sparse (.zero 2)) (.dense #[(1 : ℚ), 2]) :=
    ⟨rfl, rfl, by decide +kernel⟩
  have hleft : (Vec.dense #[1, 2]).dot (.dense #[3, (4 : ℚ)]) = .ok 11 := by decide +kernel
  have hright : (Vec.sparse (.zero 2)).dot (.dense #[3, (4 : ℚ)]) = .ok 0 := by decide +kernel
  have hlistable : (Vec.dense #[(1 : ℚ), 2]).IsListable := isListable_of_dense rfl
  obtain ⟨-, hprograms, -, -, -, hadditive, -⟩ := sparse_vectors_simulate_dense (K := ℚ)
  exact ⟨halike, (hprograms p q halike).1, ⟨hsum, hlistable, hleft, hright⟩,
    (hadditive _ _ _ _ _ _ hsum hlistable hleft hright).2⟩

/-- An index that is too large for a word with a sign tells a dense vector from a sparse one:
both refuse it, but not for the same reason.  A sparse vector of so many entries can be made,
but its nonzero indices cannot be listed. -/
theorem unsigned_index_tells_kinds_apart :
    let p : List (Instruction ℚ) := [.make "v" (.dense [.real 1]), .get "v" signedLimit]
    let q : List (Instruction ℚ) :=
      [.make "v" (.sparse 1 [(0, .real 1)]), .get "v" signedLimit]
    let large : List (Instruction ℚ) := [.make "v" (.sparse signedLimit []), .nonzero "v"]
    List.Forall₂ Instruction.Alike p q ∧
    (Instruction.runAll .empty p).1[1]? = some (.error .tooLarge) ∧
    (Instruction.runAll .empty q).1[1]? = some (.error .indexOutOfRange) ∧
    (∃ v, (Instruction.runAll .empty large).1[0]? = some (.ok (.vector v))) ∧
    (Instruction.runAll .empty large).1[1]? = some (.error .tooLarge) := by
  intro p q large
  have hliteral : Literal.Alike (.dense [.real (1 : ℚ)]) (.sparse 1 [(0, .real 1)]) :=
    alike_of_decide_aux (by decide +kernel)
  exact ⟨.cons (.make "v" hliteral) (.cons (.same nofun) .nil), rfl, rfl, ⟨_, rfl⟩, rfl⟩

end Vec

end LatentFactors
