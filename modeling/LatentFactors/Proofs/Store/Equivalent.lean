import LatentFactors.Proofs.Store.Reading
import LatentFactors.Proofs.Store.TwoRuns

/-!
# Stores that cannot be told apart

Reading parameters of side information that are not there stores zeros, and a
store without them reads as the same zeros.  So two stores may hold different
families and still give the same for every question.  `Store.Equivalent` says
that they do: the factors are the same, in the same order, as are the side
information, the thresholds and the draws, and all parameters of side
information read the same.

Every operation has the same outcome on equivalent stores and leaves them
equivalent (`Store.family_equivalent` and the lemmas after it).  Reading
parameters of side information leads to an equivalent store
(`Store.parameters_move_equivalent`).
-/

namespace LatentFactors

/-- Whether a kind is one of factors. -/
def FamilyKind.isFactors (kind : FamilyKind) : Bool :=
  match kind.role with
  | .factors _ => true
  | .parameters _ => false

theorem FamilyKind.isFactors_eq_false {kind : FamilyKind} {owner : SideOwner}
    (h : kind.role = .parameters owner) : kind.isFactors = false := by
  rw [isFactors, h]

theorem FamilyKey.isFactors_congr (k j : FamilyKey) (h : (k == j) = true) :
    k.kind.isFactors = j.kind.isFactors := by
  rw [(FamilyKey.beq_iff.1 h).1]

namespace Store

variable {α : Type}

/-- The factors in a store. -/
def factors (s : Store α) : Table FamilyKey (Family α) := s.families.restrict (·.kind.isFactors)

theorem find?_factors (s : Store α) {key : FamilyKey} (h : key.kind.isFactors = true) :
    s.factors.find? key = s.families.find? key :=
  Table.find?_restrict FamilyKey.isFactors_congr s.families h

theorem keys_factors (s : Store α) {kind : FamilyKind} (h : kind.isFactors = true) :
    s.factors.keys.filter (·.kind = kind) = s.families.keys.filter (·.kind = kind) := by
  rw [factors, Table.keys_restrict, List.filter_filter]
  refine List.filter_congr fun key _ => ?_
  by_cases hkind : key.kind = kind <;> simp [hkind, h]

variable [Scalar α]

/-- What a family reads as once one has been written. -/
theorem reading_insert (s : Store α) (written : FamilyKey) (family : Family α) {key : FamilyKey}
    {owner : SideOwner} (h : key.kind.role = .parameters owner) :
    reading { s with families := s.families.insert written family } key =
      if written == key then .ok family else s.reading key := by
  rw [reading_of_parameters h, reading_of_parameters h, Table.find?_insert]
  by_cases hkey : (written == key) = true
  · rw [if_pos hkey, if_pos hkey]
  · rw [if_neg hkey, if_neg hkey]

/-- Two stores with the same factors, in the same order, the same side
information, thresholds and draws, and the same readings. -/
structure Equivalent (s t : Store α) : Prop where
  shape : t.shape = s.shape
  factors : t.factors = s.factors
  sides : t.sides = s.sides
  cuts : t.cuts = s.cuts
  draws : t.draws = s.draws
  readings (key : FamilyKey) (owner : SideOwner) (h : key.kind.role = .parameters owner) :
    t.reading key = s.reading key

namespace Equivalent

variable {s t u : Store α}

theorem refl (s : Store α) : Equivalent s s := ⟨rfl, rfl, rfl, rfl, rfl, fun _ _ _ => rfl⟩

theorem symm (h : Equivalent s t) : Equivalent t s :=
  ⟨h.shape.symm, h.factors.symm, h.sides.symm, h.cuts.symm, h.draws.symm,
    fun key owner hrole => (h.readings key owner hrole).symm⟩

theorem trans (h : Equivalent s t) (h' : Equivalent t u) : Equivalent s u :=
  ⟨h'.shape.trans h.shape, h'.factors.trans h.factors, h'.sides.trans h.sides,
    h'.cuts.trans h.cuts, h'.draws.trans h.draws,
    fun key owner hrole => (h'.readings key owner hrole).trans (h.readings key owner hrole)⟩

/-- Factors are found in equivalent stores alike. -/
theorem find?_eq (h : Equivalent s t) (key : FamilyKey) (hkey : key.kind.isFactors = true) :
    t.families.find? key = s.families.find? key := by
  rw [← find?_factors t hkey, ← find?_factors s hkey, h.factors]

theorem hasFamily_eq (h : Equivalent s t) {kind : FamilyKind} (hkind : kind.isFactors = true)
    (owner : Id) : t.hasFamily kind owner = s.hasFamily kind owner :=
  congrArg Option.isSome (h.find?_eq ⟨kind, owner⟩ hkind)

/-- The users and the items are known in the same order. -/
theorem owners_eq (h : Equivalent s t) {kind : FamilyKind} (hkind : kind.isFactors = true) :
    t.owners kind = s.owners kind := by
  rw [owners, owners, ← keys_factors t hkind, ← keys_factors s hkind, h.factors]

theorem side_eq (h : Equivalent s t) (key : SideKey) : t.side key = s.side key := by
  rw [side, side, h.sides, h.shape]

/-- Stores stay equivalent if both receive one family. -/
theorem insert (h : Equivalent s t) (key : FamilyKey) (family : Family α) :
    Equivalent { s with families := s.families.insert key family }
      { t with families := t.families.insert key family } := by
  refine ⟨h.shape, ?_, h.sides, h.cuts, h.draws, fun k owner hrole => ?_⟩
  · show (t.families.insert key family).restrict _ = (s.families.insert key family).restrict _
    rw [Table.restrict_insert FamilyKey.isFactors_congr,
      Table.restrict_insert FamilyKey.isFactors_congr]
    exact congrArg (fun f : Table FamilyKey (Family α) =>
      if key.kind.isFactors = true then f.insert key family else f) h.factors
  · rw [reading_insert t key family hrole, reading_insert s key family hrole,
      h.readings k owner hrole]

/-- Stores stay equivalent if the same is stored in both besides the families. -/
theorem update (h : Equivalent s t) {sides sides' : Table SideKey (Vec α)} {cuts cuts' : List α}
    {draws draws' : Draws α} (hsides : sides' = sides) (hcuts : cuts' = cuts)
    (hdraws : draws' = draws) :
    Equivalent { s with sides, cuts, draws }
      { t with sides := sides', cuts := cuts', draws := draws' } := by
  refine ⟨h.shape, h.factors, hsides, hcuts, hdraws, fun key owner hrole => ?_⟩
  have hreading := h.readings key owner hrole
  rw [reading_of_parameters hrole, reading_of_parameters hrole] at hreading ⊢
  exact hreading

/-- Writing parameters of side information as they read changes nothing that can be
told. -/
theorem insert_reading {key : FamilyKey} {owner : SideOwner}
    (hrole : key.kind.role = .parameters owner) {family : Family α}
    (h : s.reading key = .ok family) :
    Equivalent s { s with families := s.families.insert key family } := by
  refine ⟨rfl, ?_, rfl, rfl, rfl, fun k side hside => ?_⟩
  · show (s.families.insert key family).restrict _ = _
    rw [Table.restrict_insert FamilyKey.isFactors_congr,
      if_neg (Bool.eq_false_iff.1 (FamilyKind.isFactors_eq_false hrole))]
    rfl
  · rw [reading_insert s key family hside]
    split
    · next hkey => rw [← s.reading_congr hrole hkey, h]
    · rfl

end Equivalent

/-! ## Reading families -/

/-- Reading parameters of side information leads to an equivalent store, also
where their size is none. -/
theorem parameters_move_equivalent {kind : FamilyKind} {side : SideOwner}
    (h : kind.role = .parameters side) (owner : Id) :
    Moves Equivalent (family (α := α) kind owner) := by
  intro s
  have hreading : ((family kind owner).run s).1 = s.reading ⟨kind, owner⟩ := rfl
  rw [run_family] at hreading ⊢
  cases hfind : s.families.find? ⟨kind, owner⟩ with
  | some vectors => exact .refl s
  | none =>
    rw [hfind, run_freshFamily_of_parameters h] at hreading
    dsimp only at hreading ⊢
    rw [run_freshFamily_of_parameters h]
    cases hzeros : s.shape.zeros side with
    | error e => exact .refl s
    | ok vectors =>
      rw [hzeros] at hreading
      exact .insert_reading h hreading.symm

theorem factors_couple_equivalent {kind : FamilyKind} (h : kind.isFactors = true) (owner : Id) :
    Couples Equivalent Eq (family (α := α) kind owner) (family kind owner) := by
  have hfresh : Couples Equivalent Eq (freshFamily (α := α) kind) (freshFamily kind) :=
    freshFamily_couples_of (fun _ _ hs => ⟨hs.shape, hs.draws⟩)
      (fun _ _ _ hs => hs.update hs.sides hs.cuts rfl) kind
  exact family_couples_of (fun _ _ hs => hs.find?_eq ⟨kind, owner⟩ h)
    (fun s s' hs _ => hfresh s s' hs) fun _ _ vectors hs => hs.insert ⟨kind, owner⟩ vectors

/-- Reading a family gives the same in equivalent stores, and leaves them
equivalent. -/
theorem family_equivalent (kind : FamilyKind) (owner : Id) :
    Couples Equivalent Eq (family (α := α) kind owner) (family kind owner) := by
  cases hrole : kind.role with
  | factors intercept =>
    refine factors_couple_equivalent ?_ owner
    rw [FamilyKind.isFactors, hrole]
  | parameters side =>
    intro s s' hs
    refine ⟨.of_eq (hs.readings ⟨kind, owner⟩ side hrole), ?_⟩
    have hmoves := parameters_move_equivalent (α := α) hrole owner
    exact (hmoves s).symm.trans (hs.trans (hmoves s'))

theorem touch_equivalent (kind : FamilyKind) (owner : Id) :
    Couples Equivalent Eq (touch (α := α) kind owner) (touch kind owner) :=
  .bind (family_equivalent kind owner) fun _ _ _ => .pure rfl

/-! ## Other operations -/

theorem setFamily_equivalent (kind : FamilyKind) (owner : Id) (family : Family α) :
    Couples Equivalent Eq (setFamily kind owner family) (setFamily kind owner family) :=
  .modify fun _ _ hs => hs.insert ⟨kind, owner⟩ family

theorem setCuts_equivalent (cuts : List α) :
    Couples Equivalent Eq (setCuts cuts) (setCuts cuts) := by
  intro s s' hs
  rw [setCuts, run_bind, run_bind, run_get, run_get]
  dsimp only
  rw [hs.cuts]
  split
  · exact ⟨.error _, hs⟩
  · exact ⟨.ok rfl, hs.update hs.sides rfl hs.draws⟩

theorem setSide_equivalent (key : SideKey) (v : Vec α) :
    Couples Equivalent Eq (setSide key v) (setSide key v) := by
  intro s s' hs
  have hsize : s'.shape.sideSize key.owner = s.shape.sideSize key.owner := by rw [hs.shape]
  rw [run_setSide, run_setSide, hsize]
  split
  · exact ⟨.ok rfl, hs.update (congrArg (·.insert key v) hs.sides) hs.cuts hs.draws⟩
  · exact ⟨.error _, hs⟩

theorem offer_equivalent (key : SideKey) (v : Vec α) :
    Couples Equivalent Eq (offer key v) (offer key v) := by
  refine .bind .get fun s s' hs => ?_
  rw [hasSide, hasSide, hs.sides]
  split
  · exact .pure rfl
  · exact setSide_equivalent key v

theorem offerAll_equivalent (offers : List (SideKey × Vec α)) :
    Couples Equivalent Eq (offerAll offers) (offerAll offers) :=
  .forM fun offered _ => offer_equivalent offered.1 offered.2

end Store

end LatentFactors
