import LatentFactors.Proofs.Gradient.Cuts
import LatentFactors.Proofs.Learner.Frame
import LatentFactors.Proofs.Learner.Runs
import LatentFactors.Proofs.Store.TwoRuns

/-!
# Steps are local

A step for a user and an item reads the families and the side information of
both and the thresholds, and writes the families and the thresholds.  So two
steps from stores that are alike there end alike (`Learner.train_couples`).

The thresholds are the only thing that steps for other users and items share.
Unless the response is ordinal, a step neither looks at them nor moves them by
what it learns: it settles them (`Gradient.settle`), always in the same way.
Steps for different users and different items can therefore change places
(`Learner.train_comm`).

`steps_are_local` puts this together with `Learner.train_changesOnly`, without
any law of the arithmetic.
-/

namespace LatentFactors

variable {α : Type}

/-- The same store, except for the order in which its families and its side
information were given. -/
structure Store.Same (s t : Store α) : Prop where
  shape : t.shape = s.shape
  families (key : FamilyKey) : t.families.find? key = s.families.find? key
  sides (key : SideKey) : t.sides.find? key = s.sides.find? key
  cuts : t.cuts = s.cuts
  draws : t.draws = s.draws

theorem Store.Alike.withFamilies {keys : List FamilyKey} {places : List SideKey} {s s' : Store α}
    (h : Alike keys places s s') (families : List (FamilyKey × Family α)) :
    Alike keys places (s.withFamilies families) (s'.withFamilies families) := by
  induction families generalizing s s' with
  | nil => exact h
  | cons e rest ih => exact ih (h.insert e.1 e.2)

/-- Stores stay alike if the same families are written to both, whatever the
thresholds are. -/
theorem Store.Alike.accept {keys : List FamilyKey} {places : List SideKey} {s s' : Store α}
    (h : Alike keys places s s') (user item : Id) (new : Improved α) (cuts : List α) :
    Alike keys places (s.accept user item new) (s'.accept user item { new with cuts }) := by
  have hcuts : Alike keys places { s with cuts := new.cuts } { s' with cuts } :=
    ⟨h.shape, h.families, h.sides, h.draws⟩
  exact hcuts.withFamilies (new.families user item)

theorem Store.HasFactors.accept {keys : List FamilyKey} {s : Store α} (h : s.HasFactors keys)
    (user item : Id) (new : Improved α) : (s.accept user item new).HasFactors keys := by
  have hfamilies (families : List (FamilyKey × Family α)) :
      ∀ s : Store α, s.HasFactors keys → (s.withFamilies families).HasFactors keys := by
    induction families with
    | nil => exact fun s hs => hs
    | cons e rest ih => exact fun s hs => ih _ (hs.insert e.1 e.2)
  exact hfamilies (new.families user item) { s with cuts := new.cuts } h

theorem Store.HasFactors.of_changesOnly {keys others : List FamilyKey} {s t : Store α}
    (hs : s.HasFactors others) (h : s.ChangesOnly keys t)
    (hdisjoint : ∀ k ∈ keys, ∀ k' ∈ others, (k == k') = false) : t.HasFactors others := by
  intro key hkey intercept hrole
  rw [h.families key fun k hk => hdisjoint k hk key hkey]
  exact hs key hkey intercept hrole

variable [Scalar α]

/-! ## Thresholds of other responses -/

/-- What an update makes of thresholds that it has no steps for. -/
def Gradient.settle (clamped : Bool) (cuts : List α) : List α :=
  let new := List.zipWith (· + ·) cuts (List.replicate cuts.length 0)
  if clamped then clamp new else new

theorem Gradient.updateCuts_eq_settle {g : Gradient α} (hrule : g.rule ≠ .ordinal)
    (y : Numeral α) (cuts scores : List α) (penalty : Setting α) (clamped : Bool) :
    g.updateCuts y cuts scores penalty clamped = .ok (settle clamped cuts) := by
  have hsteps : g.cutSteps y cuts scores penalty = .ok (List.replicate cuts.length 0) := by
    unfold cutSteps
    split
    · next hordinal => exact absurd hordinal hrule
    · rfl
  rw [updateCuts, hsteps]
  rfl

namespace Learner

variable {l : Learner α} {user item : Id} {y : Numeral α} {s s' t u u' : Store α}

/-- A response without thresholds of its own. -/
def Unordered (l : Learner α) : Prop :=
  l.gradient.rule = .ofHypothesis l.hypothesis ∧ l.hypothesis ≠ .ordinal

omit [Scalar α] in
theorem Unordered.rule_ne (h : l.Unordered) : l.gradient.rule ≠ .ordinal := by
  rw [h.1]
  intro hrule
  cases hkind : l.hypothesis with
  | ordinal => exact h.2 hkind
  | ols | logistic | softmax | poisson =>
    rw [hkind] at hrule
    cases hrule

theorem scores_withCuts (h : l.Unordered) (g : Gathered α) (cuts : List α) :
    l.scores { g with cuts } = l.scores g := by
  rw [scores, scores]
  cases hkind : l.hypothesis with
  | ordinal => exact absurd hkind h.2
  | ols | logistic | softmax | poisson => rfl

/-- Other thresholds only come out as other thresholds. -/
theorem improve_withCuts (h : l.Unordered) (y : Numeral α) (g : Gathered α) (cuts : List α) :
    l.improve y { g with cuts } = (l.improve y g).map fun new =>
      { new with cuts := Gradient.settle l.clampCuts.isOn cuts } := by
  rw [improve, improve, scores_withCuts h]
  simp only [Gradient.updateCuts_eq_settle h.rule_ne, Outcome.bind_ok, Outcome.map_bind]
  rfl

/-- A step of another response settles the thresholds if it is accepted, and
leaves them otherwise. -/
theorem cuts_train (h : l.Unordered) (user item : Id) (y : Numeral α) (s : Store α) :
    ((l.train user item y).run s).2.cuts =
      match ((l.train user item y).run s).1 with
      | .ok _ => Gradient.settle l.clampCuts.isOn s.cuts
      | .error _ => s.cuts := by
  rcases hrun : (l.train user item y).run s with ⟨r, t⟩
  rcases train_cases hrun with ⟨rfl, e, rfl⟩ | ⟨-, hgrows, e, rfl⟩ | ⟨g, u, new, hgather,
    himprove, rfl, rfl⟩
  · rfl
  · exact hgrows.cuts
  · obtain ⟨scored, predicted, himproves⟩ := improve_eq_ok himprove
    have hcuts := himproves.cuts
    rw [Gradient.updateCuts_eq_settle h.rule_ne, Except.ok.injEq, (readFrom_of_run hgather).cuts,
      ((gather_moves l user item).of_run hgather).cuts] at hcuts
    exact hcuts.symm

/-! ## Two steps for one user and one item -/

/-- The places of the side information of a user and an item. -/
def sidePlaces (l : Learner α) (user item : Id) : List SideKey :=
  (l.sideTerms user item).map (·.feature)

omit [Scalar α] in
theorem mem_of_mem_sidePlaces {place : SideKey} (h : place ∈ l.sidePlaces user item) :
    place ∈ [SideKey.user user, .item item, .pair user item] := by
  obtain ⟨term, hterm, rfl⟩ := List.mem_map.1 h
  unfold sideTerms at hterm
  split at hterm
  · simp only [List.mem_cons, List.not_mem_nil, or_false] at hterm
    rcases hterm with rfl | rfl | rfl | rfl <;> simp
  · cases hterm
  · cases hterm

/-- From stores that are alike for a user and an item the same is gathered, but
for the thresholds. -/
theorem gather_couples (l : Learner α) (user item : Id) :
    Store.Couples (Store.Alike (l.familyKeys user item) (l.sidePlaces user item))
      (fun g g' => ∃ cuts, g' = { g with cuts }) (l.gather user item) (l.gather user item) := by
  refine (couples_gather (P := fun _ _ => True) (V := Eq)
    (fun _ hkey => Store.family_couples hkey) ?_ fun _ _ _ => trivial).imp ?_
  · exact fun s s' hs term hterm => .of_eq (hs.side_eq (List.mem_map_of_mem hterm))
  · exact fun g g' hg => ⟨g'.cuts, hg.eq_withCuts⟩

/-- With the same thresholds, or for a response that has none of its own, the
same families come out. -/
theorem improve_agree (y : Numeral α) (g : Gathered α) {cuts : List α}
    (hcuts : cuts = g.cuts ∨ l.Unordered) :
    Outcome.Agree
      (fun new new' => ∃ cuts', new' = { new with cuts := cuts' } ∧
        (cuts = g.cuts → cuts' = new.cuts))
      (l.improve y g) (l.improve y { g with cuts }) := by
  by_cases hsame : cuts = g.cuts
  · subst hsame
    cases l.improve y g with
    | ok new => exact .ok ⟨new.cuts, rfl, fun _ => rfl⟩
    | error e => exact .error e
  · rw [improve_withCuts (hcuts.resolve_left hsame) y g cuts]
    cases l.improve y g with
    | ok new => exact .ok ⟨_, rfl, fun h => absurd h hsame⟩
    | error e => exact .error e

/-- Steps from stores that are alike for a user and an item end alike, with the
same outcome, if the thresholds are the same or the response has none of its
own; and the thresholds stay the same if they were. -/
theorem train_couples (hs : s.Alike (l.familyKeys user item) (l.sidePlaces user item) s')
    (hcuts : s'.cuts = s.cuts ∨ l.Unordered) :
    ((l.train user item y).run s').1 = ((l.train user item y).run s).1 ∧
      ((l.train user item y).run s).2.Alike (l.familyKeys user item) (l.sidePlaces user item)
        ((l.train user item y).run s').2 ∧
      (s'.cuts = s.cuts →
        ((l.train user item y).run s').2.cuts = ((l.train user item y).run s).2.cuts) := by
  rw [run_train, run_train, hs.shape]
  cases l.requireScope >>= fun _ => l.gradient.checkLabel y s.shape.classCount with
  | error e => exact ⟨rfl, hs, id⟩
  | ok _ =>
    obtain ⟨hagree, hafter⟩ := l.gather_couples user item s s' hs
    have hgrows := l.gather_moves user item s
    have hgrows' := l.gather_moves user item s'
    rcases hgather : (l.gather user item).run s with ⟨r, u⟩
    rcases hgather' : (l.gather user item).run s' with ⟨r', u'⟩
    rw [hgather, hgather'] at hagree hafter
    rw [hgather] at hgrows
    rw [hgather'] at hgrows'
    have hkept (h : s'.cuts = s.cuts) : u'.cuts = u.cuts := by
      rw [hgrows'.cuts, hgrows.cuts, h]
    cases hagree with
    | error e => exact ⟨rfl, hafter, hkept⟩
    | @ok g g' hg =>
      have hread : g.cuts = s.cuts := (readFrom_of_run hgather).cuts.trans hgrows.cuts
      have hread' : g'.cuts = s'.cuts := (readFrom_of_run hgather').cuts.trans hgrows'.cuts
      obtain ⟨cuts, rfl⟩ := hg
      change cuts = s'.cuts at hread'
      rw [← hread, ← hread'] at hcuts ⊢
      have himprove := improve_agree y g hcuts
      dsimp only
      generalize l.improve y g = o at himprove ⊢
      generalize l.improve y { g with cuts } = o' at himprove ⊢
      cases himprove with
      | error e => exact ⟨rfl, hafter, fun h => hkept (by rw [← hread, ← hread', h])⟩
      | ok h =>
        obtain ⟨cuts', rfl, hsame⟩ := h
        exact ⟨rfl, hafter.accept .., hsame⟩

/-! ## Steps for different users and items -/

omit [Scalar α] in
/-- Different users and items have no family in common. -/
theorem familyKeys_disjoint {user' item' : Id} (huser : (user == user') = false)
    (hitem : (item == item') = false) {k k' : FamilyKey} (hk : k ∈ l.familyKeys user item)
    (hk' : k' ∈ l.familyKeys user' item') : (k == k') = false := by
  refine Bool.eq_false_iff.2 fun hsame => ?_
  obtain ⟨hkind, hname⟩ := FamilyKey.beq_iff.1 hsame
  have howner : k.owner = if k.kind.ofUser then user else item := concerns_of_mem_familyKeys hk
  have howner' : k'.owner = if k'.kind.ofUser then user' else item' :=
    concerns_of_mem_familyKeys hk'
  rw [howner, howner', ← hkind] at hname
  cases hside : k.kind.ofUser with
  | true =>
    rw [hside] at hname
    exact Bool.eq_false_iff.1 huser (Id.beq_iff.2 hname)
  | false =>
    rw [hside] at hname
    exact Bool.eq_false_iff.1 hitem (Id.beq_iff.2 hname)

omit [Scalar α] in
/-- The families of other users and items are not reached. -/
theorem beq_false_of_other {key : FamilyKey}
    (h : ((if key.kind.ofUser then user else item) == key.owner) = false) {k : FamilyKey}
    (hk : k ∈ l.familyKeys user item) : (k == key) = false := by
  refine Bool.eq_false_iff.2 fun hsame => Bool.eq_false_iff.1 h ?_
  obtain ⟨hkind, hname⟩ := FamilyKey.beq_iff.1 hsame
  have howner : k.owner = if k.kind.ofUser then user else item := concerns_of_mem_familyKeys hk
  rw [howner, hkind] at hname
  exact Id.beq_iff.2 hname

omit [Scalar α] in
/-- Of the families of the user and the item, no other spelling is reached. -/
theorem beq_false_of_not_mem {kind : FamilyKind}
    (h : (⟨kind, if kind.ofUser then user else item⟩ : FamilyKey) ∉ l.familyKeys user item)
    {k : FamilyKey} (hk : k ∈ l.familyKeys user item) :
    (k == ⟨kind, if kind.ofUser then user else item⟩) = false := by
  obtain ⟨kind', owner⟩ := k
  refine Bool.eq_false_iff.2 fun hsame => h ?_
  have howner : owner = if kind'.ofUser then user else item := concerns_of_mem_familyKeys hk
  obtain rfl : kind' = kind := (FamilyKey.beq_iff.1 hsame).1
  rwa [← howner]

/-- A step for a user and an item with factors draws nothing. -/
theorem train_keepsDraws (l : Learner α) (user item : Id) (y : Numeral α) :
    Store.Moves (Store.KeepsDraws (l.familyKeys user item)) (l.train user item y) :=
  moves_train (fun _ hkey => Store.family_keepsDraws hkey)
    fun _ _ _ _ _ _ _ hfactors => ⟨hfactors.accept user item _, rfl⟩

omit [Scalar α] in
/-- What changes families that a list of others with their factors has no part
in leaves the store alike for these. -/
theorem alike_of_changesOnly {keys others : List FamilyKey} {places : List SideKey}
    (h : s.ChangesOnly keys t) (hdisjoint : ∀ k ∈ keys, ∀ k' ∈ others, (k == k') = false)
    (hfactors : s.HasFactors others) : s.Alike others places t :=
  ⟨h.shape, fun key hkey => h.families key fun k hk => hdisjoint k hk key hkey,
    fun key _ => by rw [h.sides], Or.inr hfactors⟩

section Commute

variable {user' item' : Id} {y' : Numeral α}

/-- After another step has been taken, a step has the same outcome and leaves
the same families of its user and its item. -/
theorem train_after_train (h : l.Unordered) (huser : (user == user') = false)
    (hitem : (item == item') = false)
    (hfactors : s.HasFactors (l.familyKeys user' item')) (y y' : Numeral α) :
    ((l.train user' item' y').run ((l.train user item y).run s).2).1 =
        ((l.train user' item' y').run s).1 ∧
      ∀ key, (∃ k ∈ l.familyKeys user' item', (k == key) = true) →
        ((l.train user' item' y').run ((l.train user item y).run s).2).2.families.find? key =
          ((l.train user' item' y').run s).2.families.find? key := by
  have halike : s.Alike (l.familyKeys user' item') (l.sidePlaces user' item')
      ((l.train user item y).run s).2 :=
    alike_of_changesOnly (l.train_changesOnly user item y s)
      (fun k hk k' hk' => familyKeys_disjoint huser hitem hk hk') hfactors
  obtain ⟨houtcome, hafter, -⟩ := train_couples (y := y') halike (Or.inr h)
  refine ⟨houtcome, fun key ⟨k, hk, hkey⟩ => ?_⟩
  rw [← Table.find?_congr _ hkey, ← Table.find?_congr _ hkey, hafter.families k hk]

/-- Steps for different users and different items, all with factors, leave the
same families in either order. -/
theorem find?_train_comm (h : l.Unordered) (huser : (user == user') = false)
    (hitem : (item == item') = false) (hfactors : s.HasFactors (l.familyKeys user item))
    (hfactors' : s.HasFactors (l.familyKeys user' item')) (key : FamilyKey) :
    ((l.train user item y).run ((l.train user' item' y').run s).2).2.families.find? key =
      ((l.train user' item' y').run ((l.train user item y).run s).2).2.families.find? key := by
  have hlater := (train_after_train h huser hitem hfactors' y y').2 key
  have hlater' := (train_after_train h (BEq.symm_false huser) (BEq.symm_false hitem) hfactors
    y' y).2 key
  have hfirst := (l.train_changesOnly user item y s).families key
  have hfirst' := (l.train_changesOnly user' item' y' s).families key
  have hsecond := (l.train_changesOnly user' item' y' ((l.train user item y).run s).2).families key
  have hsecond' := (l.train_changesOnly user item y ((l.train user' item' y').run s).2).families key
  -- At most one of the steps reaches the key, and the other one has no part in it.
  rcases l.reached_or_not user item key with hkey | hnone
  · have hother : ∀ k' ∈ l.familyKeys user' item', (k' == key) = false := by
      obtain ⟨k, hk, hsame⟩ := hkey
      intro k' hk'
      refine Bool.eq_false_iff.2 fun hsame' => ?_
      exact Bool.eq_false_iff.1 (familyKeys_disjoint huser hitem hk hk')
        (BEq.trans hsame (BEq.symm hsame'))
    rw [hlater' hkey, hsecond hother]
  · rw [hsecond' hnone]
    rcases l.reached_or_not user' item' key with hkey' | hnone'
    · rw [hlater hkey']
    · rw [hsecond hnone', hfirst hnone, hfirst' hnone']

/-- Steps for different users and different items, all with factors, can change
places. -/
theorem train_comm (h : l.Unordered) (huser : (user == user') = false)
    (hitem : (item == item') = false) (hfactors : s.HasFactors (l.familyKeys user item))
    (hfactors' : s.HasFactors (l.familyKeys user' item')) :
    Store.Same ((l.train user' item' y').run ((l.train user item y).run s).2).2
      ((l.train user item y).run ((l.train user' item' y').run s).2).2 := by
  have huser' : (user' == user) = false := BEq.symm_false huser
  have hitem' : (item' == item) = false := BEq.symm_false hitem
  have houtcome := (train_after_train h huser hitem hfactors' y y').1
  have houtcome' := (train_after_train h huser' hitem' hfactors y' y).1
  have hfirst := l.train_changesOnly user item y s
  have hfirst' := l.train_changesOnly user' item' y' s
  have hsecond := l.train_changesOnly user' item' y' ((l.train user item y).run s).2
  have hsecond' := l.train_changesOnly user item y ((l.train user' item' y').run s).2
  have hkept : ((l.train user item y).run s).2.HasFactors (l.familyKeys user' item') :=
    hfactors'.of_changesOnly hfirst fun k hk k' hk' => familyKeys_disjoint huser hitem hk hk'
  have hkept' : ((l.train user' item' y').run s).2.HasFactors (l.familyKeys user item) :=
    hfactors.of_changesOnly hfirst' fun k hk k' hk' => familyKeys_disjoint huser' hitem' hk hk'
  refine ⟨?_, find?_train_comm h huser hitem hfactors hfactors', fun key => ?_, ?_, ?_⟩
  · rw [hsecond.shape, hfirst.shape, hsecond'.shape, hfirst'.shape]
  · rw [hsecond.sides, hfirst.sides, hsecond'.sides, hfirst'.sides]
  · -- Both orders settle the thresholds once for every accepted step.
    rw [cuts_train h user item y ((l.train user' item' y').run s).2, houtcome',
      cuts_train h user' item' y' s,
      cuts_train h user' item' y' ((l.train user item y).run s).2, houtcome,
      cuts_train h user item y s]
    cases ((l.train user item y).run s).1 <;> cases ((l.train user' item' y').run s).1 <;> rfl
  · rw [(l.train_keepsDraws user' item' y' _ hkept).2,
      (l.train_keepsDraws user item y s hfactors).2,
      (l.train_keepsDraws user item y _ hkept').2,
      (l.train_keepsDraws user' item' y' s hfactors').2]

end Commute

end Learner

/-- What a step reaches and reads, for every learner and store.

If the response is not ordinal, two steps for different users and different
items that all have factors give the same store in either order, and each has
the same outcome in both.

Every step leaves all side information and all families of other users and
items as they are.

Every step depends on the families of its user and its item, on the side
information of both, on the thresholds and, where factors have to start, on the
draws: from stores that are the same there it has the same outcome, and leaves
the same families of both and the same thresholds. -/
theorem steps_are_local (l : Learner α) :
    (l.gradient.rule = .ofHypothesis l.hypothesis → l.hypothesis ≠ .ordinal →
      ∀ (s : Store α) (user item user' item' : Id) (y y' : Numeral α),
        (user == user') = false → (item == item') = false →
        s.hasFamily .userFactors user = true → s.hasFamily .itemFactors item = true →
        s.hasFamily .userFactors user' = true → s.hasFamily .itemFactors item' = true →
          let t := ((l.train user item y).run s).2
          let t' := ((l.train user' item' y').run s).2
          ((l.train user' item' y').run t).1 = ((l.train user' item' y').run s).1 ∧
            ((l.train user item y).run t').1 = ((l.train user item y).run s).1 ∧
            Store.Same ((l.train user' item' y').run t).2 ((l.train user item y).run t').2) ∧
      (∀ (s : Store α) (user item : Id) (y : Numeral α),
        let t := ((l.train user item y).run s).2
        t.sides = s.sides ∧
          ∀ key : FamilyKey, ((if key.kind.ofUser then user else item) == key.owner) = false →
            t.families.find? key = s.families.find? key) ∧
      ∀ (s s' : Store α) (user item : Id) (y : Numeral α), s'.shape = s.shape →
        (∀ kind : FamilyKind, s'.families.find? ⟨kind, if kind.ofUser then user else item⟩ =
          s.families.find? ⟨kind, if kind.ofUser then user else item⟩) →
        (∀ place ∈ [SideKey.user user, .item item, .pair user item],
          s'.sides.find? place = s.sides.find? place) →
        s'.cuts = s.cuts →
        (s'.draws = s.draws ∨
          s.hasFamily .userFactors user = true ∧ s.hasFamily .itemFactors item = true) →
          ((l.train user item y).run s').1 = ((l.train user item y).run s).1 ∧
            (∀ kind : FamilyKind,
              ((l.train user item y).run s').2.families.find?
                  ⟨kind, if kind.ofUser then user else item⟩ =
                ((l.train user item y).run s).2.families.find?
                  ⟨kind, if kind.ofUser then user else item⟩) ∧
            ((l.train user item y).run s').2.cuts = ((l.train user item y).run s).2.cuts := by
  refine ⟨?_, ?_, ?_⟩
  · intro hrule hkind s user item user' item' y y' huser hitem hu hi hu' hi' t t'
    have hunordered : l.Unordered := ⟨hrule, hkind⟩
    have hfactors : s.HasFactors (l.familyKeys user item) := Learner.hasFactors_familyKeys hu hi
    have hfactors' : s.HasFactors (l.familyKeys user' item') :=
      Learner.hasFactors_familyKeys hu' hi'
    exact ⟨(Learner.train_after_train hunordered huser hitem hfactors' y y').1,
      (Learner.train_after_train hunordered (BEq.symm_false huser) (BEq.symm_false hitem)
        hfactors y' y).1,
      Learner.train_comm hunordered huser hitem hfactors hfactors'⟩
  · intro s user item y t
    have hchanges := l.train_changesOnly user item y s
    exact ⟨hchanges.sides, fun key hkey =>
      hchanges.families key fun k hk => Learner.beq_false_of_other hkey hk⟩
  · intro s s' user item y hshape hfamilies hsides hcuts hdraws
    have halike : s.Alike (l.familyKeys user item) (l.sidePlaces user item) s' := by
      refine ⟨hshape, fun key hkey => ?_, fun place hplace => ?_, hdraws.imp_right fun h =>
        Learner.hasFactors_familyKeys h.1 h.2⟩
      · obtain ⟨kind, owner⟩ := key
        have howner : owner = if kind.ofUser then user else item :=
          Learner.concerns_of_mem_familyKeys hkey
        rw [howner]
        exact hfamilies kind
      · exact hsides place (Learner.mem_of_mem_sidePlaces hplace)
    obtain ⟨houtcome, hafter, hcutsAfter⟩ := Learner.train_couples (y := y) halike (Or.inl hcuts)
    refine ⟨houtcome, fun kind => ?_, hcutsAfter hcuts⟩
    by_cases hreached : (⟨kind, if kind.ofUser then user else item⟩ : FamilyKey) ∈
        l.familyKeys user item
    · exact hafter.families _ hreached
    · have hother (k : FamilyKey) (hk : k ∈ l.familyKeys user item) :=
        Learner.beq_false_of_not_mem hreached hk
      rw [(l.train_changesOnly user item y s').families _ hother,
        (l.train_changesOnly user item y s).families _ hother, hfamilies kind]

/-- Two users and two items with side information, and the same store with other
draws to come. -/
theorem steps_are_local_for_two_pairs :
    let l : Learner Float := ⟨.ofHypothesis .logistic (.ofInt 1), .ofInt 0, .ofInt 0, .ofInt 0,
      .flag true, .sideInfo (.ofInt 0) (.ofInt 0) (.ofInt 0)⟩
    let shape : Shape Float := ⟨.ofInt 1, 2, false, .ofInt 0, .ofInt 1, .ofInt 0⟩
    let s := l.after [.touchUser (.int 1), .touchItem (.int 7), .touchUser (.int 2),
      .touchItem (.int 8), .setSide (.item (.int 7)) (.dense #[3])]
        (.create shape (.ofSource fun _ => 0))
    let s' : Store Float := { s with draws := .ofSource fun _ => 1 }
    let t := ((l.train (.int 1) (.int 7) (.integer 1)).run s).2
    let t' := ((l.train (.int 2) (.int 8) (.integer 0)).run s).2
    Store.Same ((l.train (.int 2) (.int 8) (.integer 0)).run t).2
        ((l.train (.int 1) (.int 7) (.integer 1)).run t').2 ∧
      t.families.find? ⟨.userFactors, .int 2⟩ = s.families.find? ⟨.userFactors, .int 2⟩ ∧
      ((l.train (.int 1) (.int 7) (.integer 1)).run s').1 =
        ((l.train (.int 1) (.int 7) (.integer 1)).run s).1 := by
  intro l shape s s' t t'
  have hpresent : s.hasFamily .userFactors (.int 1) = true ∧
      s.hasFamily .itemFactors (.int 7) = true ∧ s.hasFamily .userFactors (.int 2) = true ∧
        s.hasFamily .itemFactors (.int 8) = true := by decide +kernel
  obtain ⟨hu, hi, hu', hi'⟩ := hpresent
  clear_value s
  obtain ⟨hcommute, hframe, hreads⟩ := steps_are_local l
  refine ⟨(hcommute rfl (by decide) s (.int 1) (.int 7) (.int 2) (.int 8) (.integer 1)
    (.integer 0) rfl rfl hu hi hu' hi').2.2, ?_, ?_⟩
  · exact (hframe s (.int 1) (.int 7) (.integer 1)).2 ⟨.userFactors, .int 2⟩ rfl
  · exact (hreads s s' (.int 1) (.int 7) (.integer 1) rfl (fun _ => rfl) (fun _ _ => rfl) rfl
      (Or.inr ⟨hu, hi⟩)).1

end LatentFactors
