import LatentFactors.Proofs.Gradient.Pointwise
import LatentFactors.Proofs.Learner.Runs

/-!
# The sizes in a store

`Store.WellSized` says that everything in a store has the size that its shape
gives: there is a threshold between neighbouring classes, every family has one
vector for each class that has vectors of its own, and vectors and side
information have the sizes of their kind.  A new store is well sized, and
every change keeps it so (`Learner.Change.wellSized`), for all learners and
shapes.

What is gathered from a well sized store fits together
(`Learner.fits_of_run`): vectors that are multiplied have one size, and there
are as many of them on both sides.  If a learner can read with these sizes,
then all of it can be listed, too (`Learner.listable_of_run`), and has products.
-/

namespace LatentFactors

variable {α : Type} [Scalar α]

/-- Whether the vectors of a kind have a size. -/
def Shape.HasSize (shape : Shape α) (kind : FamilyKind) (size : Nat) : Prop :=
  match kind.role with
  | .factors _ => shape.factorSize.count = .ok (size - 3 : Int)
  | .parameters owner => (shape.sideSize owner).vectorSize = .ok (size : Int)

/-- A family with as many vectors as a shape asks for, of the size of their
kind. -/
structure Shape.SizedFamily (shape : Shape α) (kind : FamilyKind) (family : Family α) : Prop where
  length : family.length = shape.vectorCount
  size : ∀ v ∈ family, shape.HasSize kind v.size

/-- A store in which everything has its size. -/
structure Store.WellSized (s : Store α) : Prop where
  cuts : s.cuts.length = s.shape.cutCount
  families : s.Families s.shape.SizedFamily
  sides : ∀ key v, s.sides.find? key = some v →
    (s.shape.sideSize key.owner).isExactly v.size = true

/-- What was gathered fits together. -/
structure Gathered.Fits (g : Gathered α) (shape : Shape α) : Prop where
  cuts : g.cuts.length = shape.cutCount
  users : g.users.length = shape.vectorCount
  items : g.items.length = shape.vectorCount
  factors : ∀ v ∈ g.users, ∀ w ∈ g.items, v.size = w.size
  parameters : ∀ x ∈ g.terms, x.parameters.length = shape.vectorCount
  features : ∀ x ∈ g.terms, ∀ v ∈ x.parameters, v.size = x.feature.size

/-- The entries of what was gathered can be listed. -/
structure Gathered.Listable (g : Gathered α) : Prop where
  users : ∀ v ∈ g.users, v.IsListable
  items : ∀ v ∈ g.items, v.IsListable
  parameters : ∀ x ∈ g.terms, ∀ v ∈ x.parameters, v.IsListable
  features : ∀ x ∈ g.terms, x.feature.IsListable

section Products

variable {g : Gathered α} {shape : Shape α}

omit [Scalar α] in
/-- Listable factors that fit together have products. -/
theorem Gathered.Fits.hasProduct_factors (h : g.Fits shape) (hlistable : g.Listable) {v w : Vec α}
    (hv : v ∈ g.users) (hw : w ∈ g.items) : v.HasProduct w :=
  ⟨h.factors v hv w hw, hlistable.users v hv, hlistable.items w hw⟩

omit [Scalar α] in
/-- So have the parameters of a side term with its side information. -/
theorem Gathered.Fits.hasProduct_feature (h : g.Fits shape) (hlistable : g.Listable)
    {x : GatheredTerm α} (hx : x ∈ g.terms) {v : Vec α} (hv : v ∈ x.parameters) :
    v.HasProduct x.feature :=
  ⟨h.features x hx v hv, hlistable.parameters x hx v hv, hlistable.features x hx⟩

end Products

/-! ## Starting and updating -/

/-- Starting families have their sizes. -/
theorem Shape.sizedFamily_of_starts {shape : Shape α} {source : Nat → α} {kind : FamilyKind}
    {family : Family α} (h : Store.Starts shape source kind family) :
    shape.SizedFamily kind family := by
  unfold Store.Starts at h
  cases hrole : kind.role with
  | factors intercept =>
    rw [hrole] at h
    obtain ⟨size, n, hsize, -, -, rfl⟩ := h
    refine ⟨by simp, fun v hv => ?_⟩
    obtain ⟨c, -, rfl⟩ := List.mem_map.1 hv
    rw [HasSize, hrole]
    simpa [Store.startVector] using hsize
  | parameters owner =>
    rw [hrole] at h
    obtain ⟨size, hsize, rfl⟩ := h
    refine ⟨List.length_replicate, fun v hv => ?_⟩
    obtain ⟨-, rfl⟩ := List.mem_replicate.1 hv
    rw [HasSize, hrole]
    exact hsize

/-- A family that is aligned with a sized one is sized. -/
theorem Shape.SizedFamily.of_aligned {shape : Shape α} {kind : FamilyKind} {old new : Family α}
    (h : shape.SizedFamily kind old) (halign : Aligned old new) :
    shape.SizedFamily kind new := by
  refine ⟨halign.length.trans h.length, fun w hw => ?_⟩
  obtain ⟨c, hc⟩ := List.mem_iff_getElem?.1 hw
  obtain ⟨v, hv, -, hsize⟩ := halign.exists_old hc
  rw [hsize]
  exact h.size v (List.mem_of_getElem? hv)

theorem Store.length_initialCuts (shape : Shape α) (draws : Draws α) :
    (initialCuts shape draws).1.length = shape.cutCount := by
  unfold initialCuts
  split
  · next n _ hcount =>
    rw [hcount]
    simp [Draws.next]
  · exact List.length_replicate

theorem Store.wellSized_create (shape : Shape α) (draws : Draws α) :
    (create shape draws).WellSized := by
  refine ⟨length_initialCuts shape draws, families_create _ shape draws, fun key v h => ?_⟩
  cases h

theorem Store.Grows.wellSized {user item : Id} {s t : Store α} (h : Grows user item s t)
    (hs : s.WellSized) : t.WellSized := by
  have hfamilies : t.Families s.shape.SizedFamily :=
    h.keeps_families hs.families fun _ _ => Shape.sizedFamily_of_starts
  constructor
  · rw [h.cuts, h.shape]
    exact hs.cuts
  · rw [h.shape]
    exact hfamilies
  · rw [h.sides, h.shape]
    exact hs.sides

theorem Store.WellSized.give {s : Store α} (hs : s.WellSized) {key : SideKey} {v : Vec α}
    (h : (s.shape.sideSize key.owner).isExactly v.size = true) :
    ({ s with sides := s.sides.insert key v } : Store α).WellSized := by
  refine ⟨hs.cuts, hs.families, fun key' w hfind => ?_⟩
  rw [Table.find?_insert] at hfind
  split at hfind
  · next hkey =>
    injection hfind with hfind
    rw [← (SideKey.beq_iff.1 hkey).1, ← hfind]
    exact h
  · exact hs.sides key' w hfind

namespace Learner

variable {l : Learner α} {user item : Id} {s t u : Store α} {g : Gathered α}

/-- Every change leaves a store well sized. -/
theorem Change.wellSized (h : l.Change s t) (hs : s.WellSized) : t.WellSized := by
  cases h with
  | grow user item t h => exact h.wellSized hs
  | give key v h => exact hs.give h
  | forget key =>
    refine ⟨hs.cuts, hs.families, fun key' w hfind => ?_⟩
    rw [Table.find?_erase] at hfind
    split at hfind
    · cases hfind
    · exact hs.sides key' w hfind
  | learn user item y g u new hgather himprove =>
    have hread := readFrom_of_run hgather
    have hu : u.WellSized := ((gather_moves l user item).of_run hgather).wellSized hs
    obtain ⟨scored, predicted, himproves⟩ := improve_eq_ok himprove
    refine ⟨?_, ?_, hu.sides⟩
    · show new.cuts.length = u.shape.cutCount
      rw [length_cuts_of_improve himprove, hread.cuts]
      exact hu.cuts
    · refine Store.families_accept hu.families ?_ ?_ ?_
      · exact (hu.families _ _ hread.users).of_aligned
          (Gradient.updateFamily_aligned himproves.users)
      · exact (hu.families _ _ hread.items).of_aligned
          (Gradient.updateFamily_aligned himproves.items)
      · intro e he
        obtain ⟨x, hx, -, hkey, hupdate⟩ := himproves.exists_term hread he
        rw [hkey]
        exact (hu.families _ _ (hread.parameters x hx)).of_aligned
          (Gradient.updateFamily_aligned hupdate)

theorem wellSized_after (l : Learner α) (actions : List (Action α)) (shape : Shape α)
    (draws : Draws α) : (l.after actions (.create shape draws)).WellSized :=
  after_induction (Store.wellSized_create shape draws) (fun _ _ hs h => h.wellSized hs) actions

/-! ## What fits together -/

private theorem size_eq_aux {setting : Setting α} {m n : Nat}
    (hm : setting.vectorSize = .ok (m : Int)) (hn : setting.isExactly n = true) : m = n := by
  unfold Setting.vectorSize at hm
  split at hm
  · next k =>
    injection hm with hm
    simp only [Setting.isExactly, Setting.numeral?, Option.any_some, Numeral.isExactly,
      beq_iff_eq] at hn
    omega
  · next b =>
    injection hm with hm
    simp only [Setting.isExactly, Setting.numeral?, Option.any_some, Numeral.isExactly,
      beq_iff_eq] at hn
    omega
  · split at hm <;> cases hm
  · cases hm
  · cases hm
  · cases hm
  · cases hm

/-- Side information that is read has the size of its owner. -/
theorem size_of_side (hs : s.WellSized) {key : SideKey} {v : Vec α}
    (hv : s.side key = .ok v) {m : Nat}
    (hm : (s.shape.sideSize key.owner).vectorSize = .ok (m : Int)) : m = v.size := by
  unfold Store.side at hv
  split at hv
  · next w hfind =>
    injection hv with hv
    subst hv
    exact size_eq_aux hm (hs.sides key w hfind)
  · rw [hm, Outcome.bind_ok] at hv
    obtain ⟨-, rfl⟩ := Vec.sparseZero_eq_ok hv
    rfl

/-- What is gathered from a well sized store fits together. -/
theorem fits_of_run (hs : s.WellSized) (h : (l.gather user item).run s = (.ok g, t)) :
    g.Fits s.shape := by
  have hgrows : s.Grows user item t := (gather_moves l user item).of_run h
  have ht := hgrows.wellSized hs
  have hread := readFrom_of_run h
  have husers := ht.families _ _ hread.users
  have hitems := ht.families _ _ hread.items
  rw [← hgrows.shape]
  refine ⟨?_, husers.length, hitems.length, ?_, ?_, ?_⟩
  · rw [hread.cuts]
    exact ht.cuts
  · intro v hv w hw
    have hvsize : t.shape.factorSize.count = .ok (v.size - 3 : Int) := husers.size v hv
    have hwsize : t.shape.factorSize.count = .ok (w.size - 3 : Int) := hitems.size w hw
    rw [hvsize] at hwsize
    injection hwsize with hwsize
    omega
  · intro x hx
    exact (ht.families _ _ (hread.parameters x hx)).length
  · intro x hx v hv
    have hterm := term_mem_sideTerms hread.terms hx
    have hsize := (ht.families _ _ (hread.parameters x hx)).size v hv
    rw [Shape.HasSize, (sideTerms_spec hterm).2.1] at hsize
    exact size_of_side ht (hread.features x hx) hsize

/-- Where a learner can read, everything that it gathers can be listed. -/
theorem listable_of_run (hs : s.WellSized) (hreadable : l.Readable s.shape)
    (h : (l.gather user item).run s = (.ok g, t)) : g.Listable := by
  have hgrows : s.Grows user item t := (gather_moves l user item).of_run h
  have ht := hgrows.wellSized hs
  have hread := readFrom_of_run h
  rw [← hgrows.shape] at hreadable
  obtain ⟨n, hn, hlimit⟩ := hreadable.factors
  have hfactors {v : Vec α} (hsize : t.shape.factorSize.count = .ok (v.size - 3 : Int)) :
      v.IsListable := by
    refine Vec.isListable_of_lt ?_
    rw [hn, Except.ok.injEq] at hsize
    have hcount : (v.size : Int) = n + 3 := by omega
    rw [hcount]
    exact hlimit.trans arrayLimit_lt_signedLimit
  have hfeature {x : GatheredTerm α} (hx : x ∈ g.terms) : (x.feature.size : Int) < signedLimit := by
    have hterm := term_mem_sideTerms hread.terms hx
    obtain ⟨-, -, forUser, forItem, forDynamic, hscope⟩ := sideTerms_spec hterm
    obtain ⟨m, hm, hlimit⟩ :=
      hreadable.sides forUser forItem forDynamic hscope x.term.feature.owner
    rwa [size_of_side ht (hread.features x hx) hm] at hlimit
  refine ⟨fun v hv => ?_, fun v hv => ?_, fun x hx v hv => ?_, fun x hx => ?_⟩
  · exact hfactors ((ht.families _ _ hread.users).size v hv)
  · exact hfactors ((ht.families _ _ hread.items).size v hv)
  · refine Vec.isListable_of_lt ?_
    rw [(fits_of_run hs h).features x hx v hv]
    exact hfeature hx
  · exact Vec.isListable_of_lt (hfeature hx)

end Learner

end LatentFactors
