import LatentFactors.Proofs.Arithmetic.Rational
import LatentFactors.Proofs.Gradient.ClosedForm
import LatentFactors.Proofs.Learner.Frame
import LatentFactors.Proofs.Learner.Progress
import LatentFactors.Proofs.Learner.Slots

/-!
# A step in closed form

In exact arithmetic a step is a formula in what the store held before it.  All
new families are computed from the old ones and from the prediction before the
step, so the users never meet the new items, nor the items the new users.

* `FactorStep` is the formula for the factors of one side.  An entry moves where
  some class of the other side has a nonzero entry, unless it is the constant
  one of its own side.  `factor_step` says that every step of a learner without
  side information follows it on both sides.
* `SideStep` is the formula for parameters of side information.  An entry moves
  where the side information is nonzero.  At index zero it moves by the residual
  alone, neither times the side information nor with a penalty.  `side_step`
  says that every step follows it in all four families, for every response but
  the ordinal one, and `plain_step_fails_at_zero` is a run in which index zero
  does not follow the formula of the other indices.
-/

namespace LatentFactors

variable {K : Type} [ExactScalar K]

/-- The factors of one side after a step, from the old ones of both sides. -/
structure FactorStep (own other updated : Family K) (intercept : Nat) (lr : K)
    (penalty residual : Nat → K) : Prop where
  length : updated.length = own.length
  moves (c j : Nat) (hj : j ≠ intercept) (hother : ∃ d, Family.entry other d j ≠ 0) :
    Family.entry updated c j = Family.entry own c j +
      lr * (Family.entry other c j * residual c - penalty j * Family.entry own c j)
  stays (c j : Nat) (h : j = intercept ∨ ∀ d, Family.entry other d j = 0) :
    Family.entry updated c j = Family.entry own c j

/-- Parameters of side information after a step, from the old ones and the side
information. -/
structure SideStep (old updated : Family K) (feature : Vec K) (lr : K) (penalty : Setting K)
    (residual : Nat → K) : Prop where
  length : updated.length = old.length
  moves (c j : Nat) (hc : c < old.length) (hj : j ≠ 0) (hfeature : feature.entry j ≠ 0) (lam : K)
    (hlam : penalty.factor = .ok lam) :
    Family.entry updated c j = Family.entry old c j +
      lr * (feature.entry j * residual c - lam * Family.entry old c j)
  zero (c : Nat) (hc : c < old.length) (hfeature : feature.entry 0 ≠ 0) :
    Family.entry updated c 0 = Family.entry old c 0 + lr * residual c
  stays (c j : Nat) (hfeature : feature.entry j = 0) :
    Family.entry updated c j = Family.entry old c j

namespace Learner

variable {l : Learner K} {user item : Id} {y : Numeral K} {s t u : Store K} {g : Gathered K}
  {new : Improved K} {scored predicted : List K} {lr : K}

/-! ## Factors -/

/-- The penalty of a factor is that of the biases at both constant entries. -/
theorem factor_forIndex {bias factor : K} (hbias : l.biasPenalty.factor = .ok bias)
    (hfactor : l.factorPenalty.factor = .ok factor) (j : Nat) :
    (l.factorPenalties.forIndex j).factor = .ok (if j = 1 ∨ j = 2 then bias else factor) := by
  have hmem : (j : Int) ∈ l.factorPenalties.biasIndices ↔ j = 1 ∨ j = 2 := by
    show (j : Int) ∈ [(userIntercept : Int), (itemIntercept : Int)] ↔ _
    rw [List.mem_cons, List.mem_singleton, userIntercept, itemIntercept]
    omega
  rw [Penalties.forIndex]
  by_cases hj : j = 1 ∨ j = 2
  · rw [if_pos (hmem.2 hj), if_pos hj]
    exact hbias
  · rw [if_neg fun h => hj (hmem.1 h), if_neg hj]
    exact hfactor

/-- An update with the factors of the other side, which are zero at index
zero. -/
theorem factorStep_of_updateFamily (hrule : l.gradient.rule = .ofHypothesis l.hypothesis)
    (hlr : l.gradient.rate.factor = .ok lr) {bias factor : K}
    (hbias : l.biasPenalty.factor = .ok bias) (hfactor : l.factorPenalty.factor = .ok factor)
    {own other updated : Family K} (hlength : other.length = own.length)
    (hzero : ∀ v ∈ other, v.entry 0 = 0) {intercept : Nat}
    (h : l.gradient.updateFamily own (.perClass other) y predicted l.factorPenalties
      (some (intercept : Int)) = .ok updated) :
    FactorStep own other updated intercept lr (fun j => if j = 1 ∨ j = 2 then bias else factor)
      (l.hypothesis.residual y predicted) := by
  have hwalked (j : Nat) : j ∈ (Features.perClass other).walked (some (intercept : Int)) ↔
      (∃ d, Family.entry other d j ≠ 0) ∧ j ≠ intercept := by
    rw [Features.mem_walked_iff, Family.exists_entry_ne_zero, ne_eq, Option.some.injEq,
      Nat.cast_inj, eq_comm]
    rfl
  have haligned := (Gradient.updateFamily_aligned h).length
  refine ⟨haligned, fun c j hj hother => ?_, fun c j hstays => ?_⟩
  · by_cases hc : c < own.length
    · have hne : j ≠ 0 := by
        rintro rfl
        obtain ⟨v, hv, hentry⟩ := Family.exists_entry_ne_zero.1 hother
        exact hentry (hzero v hv)
      exact Gradient.entry_updateFamily hrule h hlr hc ((hwalked j).2 ⟨hother, hj⟩) hne
        (factor_forIndex hbias hfactor j)
    · -- Beyond the last class there are only zeros.
      have hle : own.length ≤ c := Nat.le_of_not_lt hc
      rw [Family.entry_of_length_le hle, Family.entry_of_length_le (hlength.trans_le hle),
        Family.entry_of_length_le (haligned.trans_le hle)]
      ring
  · refine Gradient.entry_updateFamily_stays h c fun hmem => ?_
    obtain ⟨⟨d, hd⟩, hj⟩ := (hwalked j).1 hmem
    rcases hstays with hstays | hstays
    · exact hj hstays
    · exact hd (hstays d)

/-- What a step makes of the factors of both sides. -/
theorem factorSteps_of_improves (hrule : l.gradient.rule = .ofHypothesis l.hypothesis)
    (hlr : l.gradient.rate.factor = .ok lr) {bias factor : K}
    (hbias : l.biasPenalty.factor = .ok bias) (hfactor : l.factorPenalty.factor = .ok factor)
    {shape : Shape K} {size : Nat} (hslots : u.Families (SlotsOf shape size))
    (hread : g.ReadFrom l user item u) (h : l.Improves y g new scored predicted) :
    FactorStep g.users g.items new.users 1 lr (fun j => if j = 1 ∨ j = 2 then bias else factor)
        (l.hypothesis.residual y predicted) ∧
      FactorStep g.items g.users new.items 2 lr (fun j => if j = 1 ∨ j = 2 then bias else factor)
        (l.hypothesis.residual y predicted) := by
  have husers := hslots _ _ hread.users userIntercept rfl
  have hitems := hslots _ _ hread.items itemIntercept rfl
  constructor
  · exact factorStep_of_updateFamily hrule hlr hbias hfactor
      (hitems.length.trans husers.length.symm) hitems.zero h.users
  · exact factorStep_of_updateFamily hrule hlr hbias hfactor
      (husers.length.trans hitems.length.symm) husers.zero h.items

omit [ExactScalar K] in
/-- A step without side information reaches the factors of the user and the
item. -/
theorem familyKeys_of_factors (hscope : l.scope = .factors) (user item : Id) :
    l.familyKeys user item = [⟨.userFactors, user⟩, ⟨.itemFactors, item⟩] := by
  rw [familyKeys, sideTerms, hscope]
  rfl

/-! ## Parameters of side information -/

/-- An update with side information. -/
theorem sideStep_of_updateFamily (hrule : l.gradient.rule = .ofHypothesis l.hypothesis)
    (hkind : l.hypothesis ≠ .ordinal) (hlr : l.gradient.rate.factor = .ok lr)
    {old updated : Family K} {f : Vec K} {penalty : Setting K}
    (h : l.gradient.updateFamily old (.shared f) y predicted ⟨penalty, .ofReal 0, []⟩ none =
      .ok updated) :
    SideStep old updated f lr penalty (l.hypothesis.residual y predicted) := by
  have hwalked (j : Nat) : j ∈ (Features.shared f).walked none ↔ f.entry j ≠ 0 := by
    rw [Features.mem_walked_iff]
    simp [Features.vectors]
  refine ⟨(Gradient.updateFamily_aligned h).length, fun c j hc hj hf lam hlam => ?_,
    fun c hc hf => ?_, fun c j hf => ?_⟩
  · exact Gradient.entry_updateFamily hrule h hlr hc ((hwalked j).2 hf) hj hlam
  · exact Gradient.entry_updateFamily_zero hrule hkind h hlr hc ((hwalked 0).2 hf)
  · exact Gradient.entry_updateFamily_stays h c fun hmem => (hwalked j).1 hmem hf

end Learner

/-- A step of a learner without side information, in every store that a
recommender of a configuration can reach.  A value that passes the check is
learned, if arrays have the size of the factors.  What is learned follows from
the factors and the prediction that there are once those of the user and the
item have started.  The constant entries are entry one of the user and entry two
of the item, and both have the penalty of the biases.  Nothing happens to other
users and items. -/
theorem factor_step {c : LearnerConfig K} (htyped : c.Typed)
    (hside : (c.setting .sideInfo).isOn = false) {size : Nat}
    (hsize : (c.setting .factorSize).count = .ok (size : Int)) {lr bias factor : K}
    (hlr : (c.setting .learningRate).factor = .ok lr)
    (hbias : (c.setting .biasPenalty).factor = .ok bias)
    (hfactor : (c.setting .factorPenalty).factor = .ok factor) {draws : Draws K}
    {r : Recommender K} (hr : c.recommender draws = .ok r) (actions : List (Action K))
    (user item : Id) (y : Numeral K) :
    let s := r.learner.after actions r.store
    (r.learner.gradient.checkLabel y s.shape.classCount = .ok () →
      (size + 3 : Int) < arrayLimit → ∃ t, (r.learner.train user item y).run s = (.ok (), t)) ∧
    ∀ t, (r.learner.train user item y).run s = (.ok (), t) →
      ∃ p u users items newUsers newItems,
        (r.learner.predict user item).run s = (.ok p, u) ∧ s.Grows user item u ∧
        u.families.find? ⟨.userFactors, user⟩ = some users ∧
        u.families.find? ⟨.itemFactors, item⟩ = some items ∧
        t.families.find? ⟨.userFactors, user⟩ = some newUsers ∧
        t.families.find? ⟨.itemFactors, item⟩ = some newItems ∧
        FactorStep users items newUsers 1 lr (fun j => if j = 1 ∨ j = 2 then bias else factor)
          (r.learner.hypothesis.residual y p) ∧
        FactorStep items users newItems 2 lr (fun j => if j = 1 ∨ j = 2 then bias else factor)
          (r.learner.hypothesis.residual y p) ∧
        ∀ key : FamilyKey, (⟨.userFactors, user⟩ == key) = false →
          (⟨.itemFactors, item⟩ == key) = false →
            t.families.find? key = s.families.find? key := by
  intro s
  refine ⟨fun hy hlimit => ?_, fun t ht => ?_⟩
  · have hsized : c.Sized := by
      refine ⟨⟨size, hsize, hlimit⟩, fun hon => ?_⟩
      rw [hside] at hon
      cases hon
    exact LearnerConfig.exists_run_train htyped hsized hr actions user item
      ⟨_, Outcome.real_eq y⟩ hy
  obtain ⟨h, shape, -, hshape, hlearner, hstore, -, hsame, -⟩ := LearnerConfig.reached hr actions
  have hcount : shape.factorSize.count = .ok (size : Int) := by
    rw [(LearnerConfig.shape_eq_ok hshape).2.2.1]
    exact hsize
  have hslots : s.Families (Learner.SlotsOf shape size) := by
    have hafter := r.learner.slots_after hcount draws actions
    rwa [← hstore] at hafter
  have hscope : (c.learner h).scope = .factors := by
    rw [LearnerConfig.learner]
    dsimp only
    rw [hside]
    rfl
  change s.shape = shape at hsame
  rw [hlearner] at ht ⊢
  obtain ⟨hrequire, -, g, u, new, hgather, himprove, rfl⟩ := Learner.train_eq_ok_iff.1 ht
  obtain ⟨scored, p, himproves⟩ := Learner.improve_eq_ok himprove
  have hread := Learner.readFrom_of_run hgather
  have hgrows : s.Grows user item u := ((c.learner h).gather_moves user item).of_run hgather
  have huslots : u.Families (Learner.SlotsOf shape size) :=
    hgrows.keeps_families hslots fun _ _ hstarts => by
      rw [hsame] at hstarts
      exact Learner.slotsOf_starts hcount hstarts
  obtain ⟨hstep, hstep'⟩ :=
    Learner.factorSteps_of_improves rfl hlr hbias hfactor huslots hread himproves
  refine ⟨p, u, g.users, g.items, new.users, new.items,
    Learner.run_predict_of_improves hrequire hgather himproves, hgrows, hread.users,
    hread.items, ?_, ?_, hstep, hstep', fun key huser hitem => ?_⟩
  · exact Learner.find?_accept_of_mem himproves hread
      (e := (⟨.userFactors, user⟩, new.users)) List.mem_cons_self
  · exact Learner.find?_accept_of_mem himproves hread
      (e := (⟨.itemFactors, item⟩, new.items)) (List.mem_cons_of_mem _ List.mem_cons_self)
  · refine (((c.learner h).train_changesOnly user item y).of_run ht).families key fun k hk => ?_
    rw [Learner.familyKeys_of_factors hscope] at hk
    rcases List.mem_cons.1 hk with rfl | hk
    · exact huser
    · rw [List.mem_singleton.1 hk]
      exact hitem

/-- Ordered classes: the second of three, after a step for the third. -/
theorem factor_step_ordinal :
    let c : LearnerConfig ℚ := ((LearnerConfig.default.set .classes (.ofInt 3)).set
      .ordinal (.flag true)).set .factorSize (.ofInt 1)
    ∃ r, c.recommender (.ofSource fun _ => 0) = .ok r ∧
      let s := r.learner.after [.train (.int 1) (.int 7) (.integer 2)] r.store
      r.learner.gradient.checkLabel (.integer 1) s.shape.classCount = .ok () ∧
        ∃ p u t users items newUsers, (r.learner.predict (.int 1) (.int 7)).run s = (.ok p, u) ∧
          (r.learner.train (.int 1) (.int 7) (.integer 1)).run s = (.ok (), t) ∧
          u.families.find? ⟨.userFactors, .int 1⟩ = some users ∧
          u.families.find? ⟨.itemFactors, .int 7⟩ = some items ∧
          t.families.find? ⟨.userFactors, .int 1⟩ = some newUsers ∧
          FactorStep users items newUsers 1 (Scalar.decimal 5 3)
            (fun j => if j = 1 ∨ j = 2 then Scalar.decimal 5 3 else Scalar.decimal 25 3)
            (Hypothesis.ordinal.residual (.integer 1) p) := by
  intro c
  have htyped : c.Typed := by
    refine ⟨⟨3, rfl⟩, fun f hf => ?_⟩
    simp only [Field.rates, List.mem_cons, List.not_mem_nil, or_false] at hf
    rcases hf with rfl | rfl | rfl | rfl | rfl | rfl | rfl <;> exact ⟨_, rfl⟩
  refine ⟨_, rfl, ?_⟩
  intro s
  have hy : (c.learner .ordinal).gradient.checkLabel (.integer 1) s.shape.classCount = .ok () := by
    decide +kernel
  have hsize : (c.setting .factorSize).count = .ok ((1 : Nat) : Int) := rfl
  have hr : c.recommender (.ofSource fun _ => 0) = .ok _ := rfl
  obtain ⟨haccepted, hlearned⟩ := factor_step htyped rfl hsize rfl rfl rfl hr
    [.train (.int 1) (.int 7) (.integer 2)] (.int 1) (.int 7) (.integer 1)
  obtain ⟨t, ht⟩ := haccepted hy (by decide)
  obtain ⟨p, u, users, items, newUsers, -, hp, -, husers, hitems, hnew, -, hstep, -, -⟩ :=
    hlearned t ht
  exact ⟨hy, p, u, t, users, items, newUsers, hp, ht, husers, hitems, hnew, hstep⟩

/-- An accepted step of a learner with side information, for every response but
the ordinal one, and its prediction before the step.  Each of the four families
of parameters follows its own side information with its own penalty, except
that index zero moves as if the side information were one there and the penalty
nothing. -/
theorem side_step {l : Learner K} {forUser forItem forDynamic : Setting K}
    (hscope : l.scope = .sideInfo forUser forItem forDynamic)
    (hrule : l.gradient.rule = .ofHypothesis l.hypothesis) (hkind : l.hypothesis ≠ .ordinal)
    {lr : K} (hlr : l.gradient.rate.factor = .ok lr) {user item : Id} {y : Numeral K}
    {s t : Store K} (h : (l.train user item y).run s = (.ok (), t)) :
    ∃ p u, (l.predict user item).run s = (.ok p, u) ∧ s.Grows user item u ∧
      ∀ (kind : FamilyKind) (owner : Id) (feature : SideKey) (penalty : Setting K),
        (kind, owner, feature, penalty) ∈
            [(.userOnItemSide, user, .item item, forItem),
              (.userOnDynamicSide, user, .pair user item, forDynamic),
              (.itemOnUserSide, item, .user user, forUser),
              (.itemOnDynamicSide, item, .pair user item, forDynamic)] →
          ∃ old f updated, u.families.find? ⟨kind, owner⟩ = some old ∧ u.side feature = .ok f ∧
            t.families.find? ⟨kind, owner⟩ = some updated ∧
            SideStep old updated f lr penalty (l.hypothesis.residual y p) := by
  obtain ⟨hrequire, -, g, u, new, hgather, himprove, rfl⟩ := Learner.train_eq_ok_iff.1 h
  obtain ⟨scored, p, himproves⟩ := Learner.improve_eq_ok himprove
  refine ⟨p, u, Learner.run_predict_of_improves hrequire hgather himproves,
    (l.gather_moves user item).of_run hgather, fun kind owner feature penalty hmem => ?_⟩
  have hterm : (⟨⟨kind, owner⟩, feature, penalty⟩ : SideTerm K) ∈ l.sideTerms user item := by
    rw [Learner.sideTerms, hscope]
    simpa [SideTerm.mk.injEq, FamilyKey.mk.injEq, and_assoc] using hmem
  obtain ⟨old, f, updated, hold, hf, hnew, hupdate⟩ :=
    himproves.exists_updated (Learner.readFrom_of_run hgather) hterm
  exact ⟨old, f, updated, hold, hf, hnew,
    Learner.sideStep_of_updateFamily hrule hkind hlr hupdate⟩

/-- A second step for an item with side information, with a penalty. -/
theorem side_step_of_item_side :
    let l : Learner ℚ := ⟨.ofHypothesis .ols (.ofReal (1 / 2)), .ofInt 0, .ofInt 0, .ofInt 0,
      .flag true, .sideInfo (.ofInt 0) (.ofReal (1 / 4)) (.ofInt 0)⟩
    let shape : Shape ℚ := ⟨.ofInt 0, 1, false, .ofInt 0, .ofInt 2, .ofInt 0⟩
    let v : Vec ℚ := .dense #[-2, 3]
    let s := l.after [.setSide (.item (.int 7)) v, .train (.int 1) (.int 7) (.real (5 / 4))]
      (.create shape (.ofSource fun _ => 0))
    ∃ t, (l.train (.int 1) (.int 7) (.integer 2)).run s = (.ok (), t) ∧
      ∃ p u old f updated, (l.predict (.int 1) (.int 7)).run s = (.ok p, u) ∧
        u.families.find? ⟨.userOnItemSide, .int 1⟩ = some old ∧
        u.side (.item (.int 7)) = .ok f ∧
        t.families.find? ⟨.userOnItemSide, .int 1⟩ = some updated ∧
        SideStep old updated f (1 / 2) (.ofReal (1 / 4))
          (Hypothesis.ols.residual (.integer 2) p) := by
  intro l shape v s
  have hok : ((l.train (.int 1) (.int 7) (.integer 2)).run s).1 = .ok () := by decide +kernel
  have hrun := Store.run_of_outcome hok
  obtain ⟨p, u, hp, -, hterms⟩ := side_step rfl rfl (by decide) rfl hrun
  obtain ⟨old, f, updated, hold, hf, hupdated, hstep⟩ :=
    hterms .userOnItemSide (.int 1) (.item (.int 7)) (.ofReal (1 / 4)) List.mem_cons_self
  exact ⟨_, hrun, p, u, old, f, updated, hp, hold, hf, hupdated, hstep⟩

/-- Index zero of the side information does not follow the formula of the other
indices: the entry rises, although the side information is negative there and
the residual positive. -/
theorem plain_step_fails_at_zero :
    let l : Learner ℚ := ⟨.ofHypothesis .ols (.ofReal (1 / 2)), .ofInt 0, .ofInt 0, .ofInt 0,
      .flag true, .sideInfo (.ofInt 0) (.ofInt 0) (.ofInt 0)⟩
    let shape : Shape ℚ := ⟨.ofInt 0, 1, false, .ofInt 0, .ofInt 2, .ofInt 0⟩
    let v : Vec ℚ := .dense #[-2, 3]
    let s := l.after [.setSide (.item (.int 7)) v] (.create shape (.ofSource fun _ => 0))
    ∃ p u t old updated, (l.predict (.int 1) (.int 7)).run s = (.ok p, u) ∧
      (l.train (.int 1) (.int 7) (.real (5 / 4))).run s = (.ok (), t) ∧
      s.side (.item (.int 7)) = .ok v ∧
      u.families.find? ⟨.userOnItemSide, .int 1⟩ = some old ∧
      t.families.find? ⟨.userOnItemSide, .int 1⟩ = some updated ∧ 0 < old.length ∧
      v.entry 0 ≠ 0 ∧
      Family.entry updated 0 0 ≠ Family.entry old 0 0 + 1 / 2 *
        (v.entry 0 * l.hypothesis.residual (.real (5 / 4)) p 0 - 0 * Family.entry old 0 0) := by
  intro l shape v s
  let u := ((l.predict (.int 1) (.int 7)).run s).2
  let t := ((l.train (.int 1) (.int 7) (.real (5 / 4))).run s).2
  have hold : (u.families.find? ⟨.userOnItemSide, .int 1⟩).map
      (fun f => (f.length, Family.entry f 0 0)) = some (1, 0) := by decide +kernel
  have hupdated : (t.families.find? ⟨.userOnItemSide, .int 1⟩).map
      (fun f => Family.entry f 0 0) = some (21 / 40) := by decide +kernel
  obtain ⟨old, hfind, hentry⟩ := Option.map_eq_some_iff.1 hold
  obtain ⟨updated, hfind', hentry'⟩ := Option.map_eq_some_iff.1 hupdated
  obtain ⟨hlength, hentry⟩ := Prod.mk.inj hentry
  refine ⟨[1 / 5], u, t, old, updated, Store.run_of_outcome (by decide +kernel),
    Store.run_of_outcome (by decide +kernel), rfl, hfind, hfind', ?_, by decide +kernel, ?_⟩
  · rw [hlength]
    exact Nat.one_pos
  · rw [hentry, hentry']
    decide +kernel

end LatentFactors
