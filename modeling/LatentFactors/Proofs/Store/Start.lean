import LatentFactors.Proofs.Store.Operations
import LatentFactors.Proofs.Store.Shape
import LatentFactors.Proofs.Vec.Entries

/-!
# How a family starts

A family of factors starts from the next draws, one vector after the other,
and a family of parameters of side information starts from zeros and needs no
draw.  `Store.Starts` says so without running anything: it lists the families
that a kind can start with, for a shape and a source of draws.

* `Store.run_freshFamily_factors` and `Store.run_freshFamily_parameters` run
  `Store.freshFamily` where the sizes are counts.
* `Store.starts_of_run` is the converse: whatever `Store.freshFamily` gives is
  listed.
* `Store.freshFamily_moves`: also when it fails, only draws are taken.
* `Store.family_moves_of`: what reading a family can do to a store.
-/

namespace LatentFactors

/-- What the vectors of a family are for. -/
inductive FamilyRole where
  /-- Factors, with the constant one at an index. -/
  | factors (intercept : Nat)
  /-- Parameters of the side information of an owner. -/
  | parameters (owner : SideOwner)
  deriving DecidableEq

/-- The role of a kind of family. -/
def FamilyKind.role : FamilyKind → FamilyRole
  | .userFactors => .factors userIntercept
  | .itemFactors => .factors itemIntercept
  | .userOnItemSide => .parameters .item
  | .itemOnUserSide => .parameters .user
  | .userOnDynamicSide | .itemOnDynamicSide => .parameters .pair

/-- The sizes with which a family of a kind can start: a count of factors that
leaves room for the constant one and that arrays can have, or a count of side
information. -/
def Shape.CanStart {α : Type} [Scalar α] (shape : Shape α) (kind : FamilyKind) : Prop :=
  match kind.role with
  | .factors intercept =>
    ∃ size : Nat, shape.factorSize.count = .ok (size - 3 : Int) ∧ intercept < size ∧
      (size : Int) < arrayLimit
  | .parameters owner => ∃ size : Nat, (shape.sideSize owner).vectorSize = .ok (size : Int)

/-- With a count of factors there is room for the constants. -/
theorem Shape.room_of_count {α : Type} {shape : Shape α} {n : Nat}
    (h : shape.factorSize.count = .ok (n : Int)) {kind : FamilyKind} {intercept : Nat}
    (hrole : kind.role = .factors intercept) :
    shape.factorSize.count = .ok ((n + 3 : Nat) - 3 : Int) ∧ intercept < n + 3 := by
  constructor
  · rw [h]
    congr 1
    omega
  · cases kind <;> cases hrole <;> simp only [userIntercept, itemIntercept] <;> omega

theorem Shape.canStart_of_count {α : Type} [Scalar α] {shape : Shape α} {n : Nat}
    (h : shape.factorSize.count = .ok (n : Int)) (hlimit : (n + 3 : Int) < arrayLimit)
    {kind : FamilyKind} {intercept : Nat} (hrole : kind.role = .factors intercept) :
    shape.CanStart kind := by
  rw [CanStart, hrole]
  obtain ⟨hcount, hroom⟩ := shape.room_of_count h hrole
  exact ⟨n + 3, hcount, hroom, hlimit⟩

namespace Store

variable {α : Type}

/-- The store after `n` more draws. -/
def skip (n : Nat) (s : Store α) : Store α :=
  { s with draws := ⟨s.draws.source, s.draws.taken + n⟩ }

/-- Only draws are taken. -/
def OnlyDraws (s t : Store α) : Prop := ∃ n, t = s.skip n

instance : IsPreorder (Store α) OnlyDraws where
  refl _ := ⟨0, rfl⟩
  trans _ _ _ := by
    rintro ⟨m, rfl⟩ ⟨n, rfl⟩
    refine ⟨m + n, ?_⟩
    simp only [skip, Nat.add_assoc]

variable [Scalar α]

/-! ## Starting vectors -/

/-- The factors that start from the draws at `n`: the constant one at
`intercept`, zero at index zero, and draws elsewhere. -/
def startVector (source : Nat → α) (intercept size n : Nat) : Vec α :=
  .dense ((List.range size).map fun j =>
    if j = intercept then 1 else if j = 0 then 0
    else Draws.between drawLow drawHigh (source (n + j))).toArray

/-- The families that a kind can start with. -/
def Starts (shape : Shape α) (source : Nat → α) (kind : FamilyKind) (family : Family α) : Prop :=
  match kind.role with
  | .factors intercept =>
    ∃ size n : Nat, shape.factorSize.count = .ok (size - 3 : Int) ∧ intercept < size ∧
      (size : Int) < arrayLimit ∧ family = (List.range shape.vectorCount).map fun c =>
        startVector source intercept size (n + c * size)
  | .parameters owner =>
    ∃ size : Nat, (shape.sideSize owner).vectorSize = .ok (size : Int) ∧
      family = List.replicate shape.vectorCount (.sparse (.zero size))

private theorem put_put_aux (source : Nat → α) {intercept size n : Nat} (h : intercept < size) :
    ((do (← (Vec.dense (((List.range size).map fun k => source (n + k)).map
        (Draws.between drawLow drawHigh)).toArray).put 0 0).put intercept 1) : Outcome α (Vec α)) =
      .ok (startVector source intercept size n) := by
  have hzero : 0 < (Vec.dense (((List.range size).map fun k => source (n + k)).map
      (Draws.between drawLow drawHigh)).toArray).size := by
    simp
    omega
  have hput := Vec.put_natCast (0 : α) hzero
  rw [Nat.cast_zero] at hput
  rw [hput, Outcome.bind_ok, Vec.put_natCast 1 (by simpa using h)]
  refine congrArg (Except.ok ∘ Vec.dense) (Array.ext ?_ fun j hj hj' => ?_)
  · simp
  · by_cases hone : j = intercept
    · simp [hone]
    · by_cases hnull : j = 0
      · subst hnull
        simp [hone, Ne.symm hone]
      · simp [hone, hnull, Ne.symm hone, Ne.symm hnull]

private theorem put_put_error_aux (xs : List α) (intercept : Nat) (h : xs.length ≤ intercept) :
    ∃ e, ((do (← (Vec.dense xs.toArray).put 0 0).put intercept 1) : Outcome α (Vec α)) =
      .error e := by
  cases hrun : ((do (← (Vec.dense xs.toArray).put 0 0).put intercept 1) : Outcome α (Vec α)) with
  | error e => exact ⟨e, rfl⟩
  | ok v =>
    obtain ⟨w, hw, hlast⟩ := Outcome.bind_eq_ok.1 hrun
    rw [← Nat.cast_zero] at hw
    obtain ⟨hzero, hset⟩ := Vec.put_eq_ok hw
    obtain ⟨hi, -⟩ := Vec.put_eq_ok hlast
    rw [hset, Vec.size_set, Vec.size_dense, List.size_toArray] at hi
    exact absurd hi (Nat.not_lt.2 h)

/-- One vector is drawn from as many draws as it has entries, if an array can have so
many. -/
theorem run_drawVector_eq (intercept : Nat) (s : Store α) :
    (drawVector intercept).run s =
      match s.shape.factorSize.count with
      | .error e => (.error e, s)
      | .ok n =>
        match (checkArray (n + 3) : Outcome α Unit) with
        | .error e => (.error e, s)
        | .ok () =>
          let us := (List.range (n + 3).toNat).map fun k => s.draws.source (s.draws.taken + k)
          let zeroed := (Vec.dense (us.map (Draws.between drawLow drawHigh)).toArray).put 0 0
          (zeroed >>= fun v => v.put intercept 1, s.skip (n + 3).toNat) := by
  rw [drawVector, run_bind, run_get]
  dsimp only
  rw [run_bind, run_lift]
  cases s.shape.factorSize.count with
  | error e => rfl
  | ok n =>
    dsimp only
    rw [run_bind, run_lift]
    cases (checkArray (n + 3) : Outcome α Unit) <;> rfl

/-- A vector of factors is drawn where its size is a count that has room for
the intercept. -/
theorem run_drawVector {intercept size : Nat} {s : Store α}
    (hsize : s.shape.factorSize.count = .ok (size - 3 : Int)) (h : intercept < size)
    (hlimit : (size : Int) < arrayLimit) :
    (drawVector intercept).run s =
      (.ok (startVector s.draws.source intercept size s.draws.taken), s.skip size) := by
  have hcancel : (size - 3 + 3 : Int) = size := by omega
  rw [run_drawVector_eq, hsize]
  dsimp only
  rw [hcancel, checkArray_natCast hlimit, Int.toNat_natCast]
  exact congrArg (·, s.skip size) (put_put_aux s.draws.source h)

/-- Nothing else is drawn. -/
theorem drawVector_eq_ok {intercept : Nat} {s t : Store α} {v : Vec α}
    (h : (drawVector intercept).run s = (.ok v, t)) :
    ∃ size : Nat, s.shape.factorSize.count = .ok (size - 3 : Int) ∧ intercept < size ∧
      (size : Int) < arrayLimit := by
  rw [run_drawVector_eq] at h
  cases hcount : s.shape.factorSize.count with
  | error e =>
    rw [hcount] at h
    cases h
  | ok n =>
    rw [hcount] at h
    dsimp only at h
    cases hcheck : (checkArray (n + 3) : Outcome α Unit) with
    | error e =>
      rw [hcheck] at h
      cases h
    | ok =>
      rw [hcheck] at h
      obtain ⟨hnonneg, hlimit⟩ := checkArray_eq_ok_iff.1 hcheck
      have hsize : n = ((n + 3).toNat : Int) - 3 := by omega
      refine ⟨(n + 3).toNat, congrArg Except.ok hsize, ?_, by omega⟩
      by_contra hle
      obtain ⟨e, he⟩ := put_put_error_aux (((List.range (n + 3).toNat).map fun k =>
        s.draws.source (s.draws.taken + k)).map (Draws.between drawLow drawHigh)) intercept
        (by simpa using hle)
      dsimp only at h
      rw [he] at h
      cases h

theorem drawVector_moves (intercept : Nat) : Moves OnlyDraws (drawVector (α := α) intercept) := by
  intro s
  rw [run_drawVector_eq]
  cases s.shape.factorSize.count with
  | error e => exact ⟨0, rfl⟩
  | ok n =>
    dsimp only
    cases (checkArray (n + 3) : Outcome α Unit) with
    | error e => exact ⟨0, rfl⟩
    | ok => exact ⟨_, rfl⟩

/-! ## Starting families -/

/-- Vectors are drawn one after the other. -/
theorem run_mapM_drawVector {intercept size : Nat} (h : intercept < size)
    (hlimit : (size : Int) < arrayLimit) (count : Nat) :
    ∀ s : Store α, s.shape.factorSize.count = .ok (size - 3 : Int) →
      ((List.replicate count intercept).mapM drawVector).run s =
        (.ok ((List.range count).map fun c =>
          startVector s.draws.source intercept size (s.draws.taken + c * size)),
          s.skip (count * size)) := by
  induction count with
  | zero =>
    intro s _
    rw [List.replicate_zero, List.mapM_nil, Nat.zero_mul]
    rfl
  | succ count ih =>
    intro s hsize
    rw [List.replicate_succ, List.mapM_cons, run_bind_of_ok (run_drawVector hsize h hlimit),
      run_bind_of_ok (ih (s.skip size) hsize), run_pure]
    have htail (c : Nat) : s.draws.taken + size + c * size = s.draws.taken + (c + 1) * size := by
      rw [Nat.add_assoc, Nat.add_mul, Nat.one_mul, Nat.add_comm size]
    have hskip : (s.skip size).skip (count * size) = s.skip ((count + 1) * size) := by
      simp only [skip, htail]
    rw [hskip, List.range_succ_eq_map, List.map_cons, List.map_map]
    simp [skip, Function.comp_def, htail]

/-- A starting family by the role of its kind. -/
theorem freshFamily_eq (kind : FamilyKind) (s : Store α) :
    (freshFamily kind).run s =
      match kind.role with
      | .factors intercept => ((List.replicate s.shape.vectorCount intercept).mapM drawVector).run s
      | .parameters owner =>
        (do return List.replicate s.shape.vectorCount
              (← Vec.sparseZero (← (s.shape.sideSize owner).vectorSize)), s) := by
  cases kind <;> rfl

/-- Factors start from the next draws where their size is a count that arrays
can have. -/
theorem run_freshFamily_factors {kind : FamilyKind} {intercept size : Nat} {s : Store α}
    (hrole : kind.role = .factors intercept)
    (hsize : s.shape.factorSize.count = .ok (size - 3 : Int)) (h : intercept < size)
    (hlimit : (size : Int) < arrayLimit) :
    (freshFamily kind).run s =
      (.ok ((List.range s.shape.vectorCount).map fun c =>
        startVector s.draws.source intercept size (s.draws.taken + c * size)),
        s.skip (s.shape.vectorCount * size)) := by
  rw [freshFamily_eq, hrole]
  exact run_mapM_drawVector h hlimit _ s hsize

/-- Where no array has their size, factors do not start, and nothing is drawn. -/
theorem run_freshFamily_factors_of_le {kind : FamilyKind} {intercept size : Nat} {s : Store α}
    (hrole : kind.role = .factors intercept)
    (hsize : s.shape.factorSize.count = .ok (size - 3 : Int)) (hlimit : arrayLimit ≤ (size : Int)) :
    (freshFamily kind).run s = (.error .noSize, s) := by
  have hcancel : (size - 3 + 3 : Int) = size := by omega
  obtain ⟨count, hcount⟩ := Nat.exists_eq_succ_of_ne_zero s.shape.vectorCount_pos.ne'
  have hfirst : (drawVector intercept).run s = (.error .noSize, s) := by
    rw [run_drawVector_eq, hsize]
    dsimp only
    rw [hcancel, checkArray_of_le hlimit]
  rw [freshFamily_eq, hrole]
  dsimp only
  rw [hcount, List.replicate_succ, List.mapM_cons, run_bind, hfirst]

/-- Parameters of side information start from zeros where their size is a
count. -/
theorem run_freshFamily_parameters {kind : FamilyKind} {owner : SideOwner} {size : Nat}
    {s : Store α} (hrole : kind.role = .parameters owner)
    (hsize : (s.shape.sideSize owner).vectorSize = .ok (size : Int)) :
    (freshFamily kind).run s =
      (.ok (List.replicate s.shape.vectorCount (.sparse (.zero size))), s) := by
  rw [freshFamily_eq, hrole]
  dsimp only
  rw [hsize, Outcome.bind_ok, Vec.sparseZero_natCast, Outcome.bind_ok]
  rfl

theorem exists_run_freshFamily {kind : FamilyKind} {s : Store α} (h : s.shape.CanStart kind) :
    ∃ vectors t, (freshFamily kind).run s = (.ok vectors, t) := by
  unfold Shape.CanStart at h
  cases hrole : kind.role with
  | factors intercept =>
    rw [hrole] at h
    obtain ⟨size, hsize, hroom, hlimit⟩ := h
    exact ⟨_, _, run_freshFamily_factors hrole hsize hroom hlimit⟩
  | parameters owner =>
    rw [hrole] at h
    obtain ⟨size, hsize⟩ := h
    exact ⟨_, _, run_freshFamily_parameters hrole hsize⟩

theorem freshFamily_moves (kind : FamilyKind) : Moves OnlyDraws (freshFamily (α := α) kind) := by
  intro s
  rw [freshFamily_eq]
  cases kind.role with
  | factors intercept => exact Stateful.Moves.mapM (fun k _ => drawVector_moves k) s
  | parameters owner => exact refl_of OnlyDraws s

/-- A family that is made is one that the kind can start with. -/
theorem starts_of_run {kind : FamilyKind} {s t : Store α} {family : Family α}
    (h : (freshFamily kind).run s = (.ok family, t)) :
    Starts s.shape s.draws.source kind family := by
  rw [freshFamily_eq] at h
  unfold Starts
  cases hrole : kind.role with
  | factors intercept =>
    rw [hrole] at h
    dsimp only at h ⊢
    obtain ⟨count, hcount⟩ := Nat.exists_eq_succ_of_ne_zero s.shape.vectorCount_pos.ne'
    have hfirst := h
    rw [hcount, List.replicate_succ, List.mapM_cons] at hfirst
    obtain ⟨v, u, hv, -⟩ := run_bind_eq_ok.1 hfirst
    obtain ⟨size, hsize, hroom, hlimit⟩ := drawVector_eq_ok hv
    rw [run_mapM_drawVector hroom hlimit _ s hsize] at h
    cases h
    exact ⟨size, s.draws.taken, hsize, hroom, hlimit, rfl⟩
  | parameters owner =>
    rw [hrole] at h
    dsimp only at h ⊢
    obtain ⟨size, hsize, hzeros⟩ := Outcome.bind_eq_ok.1 (congrArg Prod.fst h)
    obtain ⟨zero, hzero, hfamily⟩ := Outcome.bind_eq_ok.1 hzeros
    obtain ⟨hnonneg, rfl⟩ := Vec.sparseZero_eq_ok hzero
    injection hfamily with hfamily
    refine ⟨size.toNat, ?_, hfamily.symm⟩
    rw [hsize, Int.toNat_of_nonneg hnonneg]

/-- Reading a family takes draws at most, or it takes draws and stores a family that was not
there.  What holds of both holds of reading. -/
theorem family_moves_of {R : Store α → Store α → Prop} {kind : FamilyKind} {owner : Id}
    (hskip : ∀ s n, R s (s.skip n))
    (hnew : ∀ s n vectors, s.families.find? ⟨kind, owner⟩ = none →
      (freshFamily kind).run s = (.ok vectors, s.skip n) →
      R s { s.skip n with families := s.families.insert ⟨kind, owner⟩ vectors }) :
    Moves R (family kind owner) := by
  intro s
  rw [run_family]
  cases hfind : s.families.find? ⟨kind, owner⟩ with
  | some vectors => exact hskip s 0
  | none =>
    obtain ⟨n, hdraws⟩ := freshFamily_moves kind s
    rcases hrun : (freshFamily kind).run s with ⟨e | vectors, t⟩
    · rw [hrun] at hdraws
      subst hdraws
      exact hskip s n
    · rw [hrun] at hdraws
      subst hdraws
      exact hnew s n vectors hfind hrun

end Store

end LatentFactors
