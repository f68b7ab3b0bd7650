import LatentFactors.Proofs.Arithmetic.Rational
import LatentFactors.Proofs.Store.Operations
import LatentFactors.Proofs.Table

/-!
# Offers of side information

Side information is offered vector by vector or in bulk, and an offer may fail half-way.  An
entry is refused if its place has nothing yet and its vector does not have the cardinality
of the place; an entry of the wrong cardinality for a place that has something is passed
over.  So what becomes of an entry depends on all entries before it, and only of those that
were reached.

* `Store.Refuses` says when an entry is refused, by the entries reached before it.
* `Store.Attempts` says which entries an offer reaches and how it ends: all of them, or those
  up to the first one that is refused.
* `Store.Holds` says what a store holds after some entries were reached: for every place what
  it held before, or else the first vector of the right cardinality, and nothing else has
  changed.

The step is `Store.run_offer_of_holds`, a whole offer is `Store.run_offerAll_of_holds`, and
offers in a row are `first_offers_are_kept`.
-/

namespace LatentFactors

/-- A request to attach side information unless there is some: for one place, or for every
place in a table. -/
inductive Offer (α : Type) where
  | user (user : Id) (v : Vec α)
  | item (item : Id) (v : Vec α)
  | pair (user item : Id) (v : Vec α)
  | users (given : Table Id (Vec α))
  | items (given : Table Id (Vec α))
  | pairs (given : Table (Id × Id) (Vec α))
  /-- For several items of one user. -/
  | pairsOf (user : Id) (given : Table Id (Vec α))

namespace Offer

variable {α : Type}

/-- The places of an offer and what is offered for them, in order. -/
def entries : Offer α → List (SideKey × Vec α)
  | user u v => [(.user u, v)]
  | item i v => [(.item i, v)]
  | pair u i v => [(.pair u i, v)]
  | users given => given.entries.map fun e => (.user e.1, e.2)
  | items given => given.entries.map fun e => (.item e.1, e.2)
  | pairs given => given.entries.map fun e => (.pair e.1.1 e.1.2, e.2)
  | pairsOf u given => given.entries.map fun e => (.pair u e.1, e.2)

variable [Scalar α]

/-- Carries out an offer. -/
def make (o : Offer α) : StoreM α Unit :=
  match o with
  | user u v => Store.offer (.user u) v
  | item i v => Store.offer (.item i) v
  | pair u i v => Store.offer (.pair u i) v
  | users _ | items _ | pairs _ | pairsOf _ _ => Store.offerAll o.entries

/-- Carries out offers one after the other and collects how they end.  What an offer attached
before it failed stays. -/
def makeAll (s : Store α) : List (Offer α) → List (Outcome α Unit) × Store α
  | [] => ([], s)
  | o :: rest =>
    let first := o.make.run s
    let later := makeAll first.2 rest
    (first.1 :: later.1, later.2)

/-- A single vector is offered like a table of one entry. -/
theorem make_eq_offerAll (o : Offer α) : o.make = Store.offerAll o.entries := by
  have hsingle (key : SideKey) (v : Vec α) : Store.offer key v = Store.offerAll [(key, v)] := by
    have hdone : (Store.offer key v >>= fun _ => pure ⟨⟩) = Store.offer key v := bind_pure _
    exact hdone.symm
  cases o with
  | user u v => exact hsingle (.user u) v
  | item i v => exact hsingle (.item i) v
  | pair u i v => exact hsingle (.pair u i) v
  | users _ => rfl
  | items _ => rfl
  | pairs _ => rfl
  | pairsOf _ _ => rfl

end Offer

/-! ## What is kept and what is refused -/

variable {α : Type} [Scalar α]

/-- The entries with the cardinality of their place. -/
def Shape.fitting (shape : Shape α) (entries : List (SideKey × Vec α)) :
    List (SideKey × Vec α) :=
  entries.filter fun e => (shape.sideSize e.1.owner).isExactly e.2.size

namespace Store

/-- What a place holds after some entries were reached: what it held before, or else the
first of the entries that fits. -/
def held (s : Store α) (reached : List (SideKey × Vec α)) (key : SideKey) : Option (Vec α) :=
  (s.sides.find? key).or (Table.findEntry key (s.shape.fitting reached))

/-- Whether an entry is refused after other entries were reached: its cardinality is wrong
and nothing is held in its place. -/
def Refuses (s : Store α) (reached : List (SideKey × Vec α)) (e : SideKey × Vec α) : Prop :=
  (s.shape.sideSize e.1.owner).isExactly e.2.size = false ∧ s.held reached e.1 = none

/-- Whether none of some entries is refused when its turn comes. -/
def Passes (s : Store α) (reached entries : List (SideKey × Vec α)) : Prop :=
  ∀ before e after, entries = before ++ e :: after → ¬ s.Refuses (reached ++ before) e

/-- How an offer of some entries ends, and which of them it reaches, after other entries were
reached: it succeeds if no entry is refused, and else it ends with the first one that is. -/
inductive Attempts (s : Store α) (reached entries : List (SideKey × Vec α)) :
    Outcome α Unit → List (SideKey × Vec α) → Prop where
  | all (h : s.Passes reached entries) : Attempts s reached entries (.ok ()) entries
  | upTo {before after : List (SideKey × Vec α)} {e : SideKey × Vec α}
      (hentries : entries = before ++ e :: after) (hbefore : s.Passes reached before)
      (he : s.Refuses (reached ++ before) e) :
      Attempts s reached entries
        (.error (.sideCardinality e.1.owner e.2.size (s.shape.sideSize e.1.owner).spelling))
        (before ++ [e])

/-- What is left of a store after some entries were reached.  Only side information was
added, behind what was there. -/
structure Holds (s : Store α) (reached : List (SideKey × Vec α)) (t : Store α) : Prop where
  only : t = { s with sides := t.sides }
  before : s.sides.entries <+: t.sides.entries
  find? (key : SideKey) : t.sides.find? key = s.held reached key

theorem Holds.refl (s : Store α) : s.Holds [] s :=
  ⟨rfl, List.prefix_refl _, fun _ => Option.or_none.symm⟩

variable {s t : Store α} {reached : List (SideKey × Vec α)}

/-- An entry that does not fit leaves everything as it is. -/
theorem held_append_of_unfit {e : SideKey × Vec α}
    (h : (s.shape.sideSize e.1.owner).isExactly e.2.size = false) (key : SideKey) :
    s.held (reached ++ [e]) key = s.held reached key := by
  have hfitting : s.shape.fitting [e] = [] := List.filter_cons_of_neg (by simp [h])
  rw [held, held, Shape.fitting, List.filter_append, ← Shape.fitting, ← Shape.fitting, hfitting,
    List.append_nil]

/-- An entry that fits is held where nothing was. -/
theorem held_append_of_fit {e : SideKey × Vec α}
    (h : (s.shape.sideSize e.1.owner).isExactly e.2.size = true) (key : SideKey) :
    s.held (reached ++ [e]) key =
      (s.held reached key).or (if e.1 == key then some e.2 else none) := by
  have hfitting : s.shape.fitting [e] = [e] := List.filter_cons_of_pos h
  rw [held, held, Shape.fitting, List.filter_append, ← Shape.fitting, ← Shape.fitting, hfitting,
    Table.findEntry_append, Option.or_assoc]
  rfl

/-! ## One entry -/

/-- An entry that comes where something is held changes nothing. -/
theorem held_append_of_held {e : SideKey × Vec α} {v : Vec α} (h : s.held reached e.1 = some v)
    {key : SideKey} (hsame : ∀ k j : SideKey, (k == j) = true →
      s.held reached k = s.held reached j) :
    s.held (reached ++ [e]) key = s.held reached key := by
  cases hfit : (s.shape.sideSize e.1.owner).isExactly e.2.size with
  | false => exact held_append_of_unfit hfit key
  | true =>
    rw [held_append_of_fit hfit]
    by_cases hkey : (e.1 == key) = true
    · rw [← hsame e.1 key hkey, h]
      rfl
    · rw [if_neg hkey, Option.or_none]

/-- An entry that fits is stored where nothing is held. -/
theorem Holds.insert (h : s.Holds reached t) {e : SideKey × Vec α}
    (hfit : (s.shape.sideSize e.1.owner).isExactly e.2.size = true)
    (hfind : t.sides.find? e.1 = none) :
    s.Holds (reached ++ [e]) { t with sides := t.sides.insert e.1 e.2 } where
  only := congrArg (fun u : Store α => { u with sides := t.sides.insert e.1 e.2 }) h.only
  before := by
    show s.sides.entries <+: (t.sides.insert e.1 e.2).entries
    rw [Table.entries_insert_of_find?_eq_none e.2 hfind]
    exact h.before.trans (List.prefix_append _ _)
  find? key := by
    show (t.sides.insert e.1 e.2).find? key = _
    rw [Table.find?_insert, held_append_of_fit hfit, ← h.find?]
    by_cases hkey : (e.1 == key) = true
    · rw [if_pos hkey, if_pos hkey, ← Table.find?_congr t.sides hkey, hfind]
      rfl
    · rw [if_neg hkey, if_neg hkey, Option.or_none]

/-- The step: an entry is refused and nothing changes, or it is not, and the store holds what
it has to. -/
theorem run_offer_of_holds (h : s.Holds reached t) (e : SideKey × Vec α) :
    ∃ u, s.Holds (reached ++ [e]) u ∧
      (s.Refuses reached e ∧ (offer e.1 e.2).run t =
          (.error (.sideCardinality e.1.owner e.2.size (s.shape.sideSize e.1.owner).spelling), u) ∨
        ¬ s.Refuses reached e ∧ (offer e.1 e.2).run t = (.ok (), u)) := by
  have hshape : t.shape = s.shape := by rw [h.only]
  have hrun : (offer e.1 e.2).run t =
      if t.hasSide e.1 then (.ok (), t) else (setSide e.1 e.2).run t := by
    rw [offer, run_bind_of_ok (run_get t)]
    split <;> rfl
  cases hheld : s.held reached e.1 with
  | some v =>
    have hside : t.hasSide e.1 = true := by
      rw [hasSide, Table.contains, h.find?, hheld]
      rfl
    have hsame (k j : SideKey) (hkj : (k == j) = true) :
        s.held reached k = s.held reached j := by
      rw [← h.find?, ← h.find?, Table.find?_congr t.sides hkj]
    refine ⟨t, ⟨h.only, h.before, fun key => ?_⟩, .inr ⟨fun hrefuses => ?_, ?_⟩⟩
    · rw [held_append_of_held hheld hsame, h.find?]
    · rw [hrefuses.2] at hheld
      cases hheld
    · rw [hrun, if_pos hside]
  | none =>
    have hfind : t.sides.find? e.1 = none := by rw [h.find?, hheld]
    have hside : ¬ t.hasSide e.1 = true := by
      rw [hasSide, Table.contains, hfind]
      simp
    rw [hrun, if_neg hside, run_setSide]
    cases hfit : (s.shape.sideSize e.1.owner).isExactly e.2.size with
    | false =>
      rw [if_neg (by rw [hshape, hfit]; exact Bool.false_ne_true), hshape]
      refine ⟨t, ⟨h.only, h.before, fun key => ?_⟩, .inl ⟨⟨hfit, hheld⟩, rfl⟩⟩
      rw [held_append_of_unfit hfit, h.find?]
    | true =>
      rw [if_pos (by rw [hshape, hfit])]
      refine ⟨_, h.insert hfit hfind, .inr ⟨fun hrefuses => ?_, rfl⟩⟩
      rw [hrefuses.1] at hfit
      cases hfit

/-! ## One offer -/

theorem Passes.cons {e : SideKey × Vec α} {rest : List (SideKey × Vec α)}
    (he : ¬ s.Refuses reached e) (h : s.Passes (reached ++ [e]) rest) :
    s.Passes reached (e :: rest) := by
  rintro (- | ⟨a, before⟩) b after heq
  · obtain ⟨rfl, -⟩ := List.cons.inj heq
    rwa [List.append_nil]
  · obtain ⟨rfl, hrest⟩ := List.cons.inj heq
    rw [List.append_cons]
    exact h before b after hrest

theorem Passes.nil : s.Passes reached [] := fun before e after h => by
  cases before <;> cases h

/-- An offer goes on after an entry that is not refused. -/
theorem Attempts.cons {e : SideKey × Vec α} {rest tried : List (SideKey × Vec α)}
    {outcome : Outcome α Unit} (he : ¬ s.Refuses reached e)
    (h : s.Attempts (reached ++ [e]) rest outcome tried) :
    s.Attempts reached (e :: rest) outcome (e :: tried) := by
  cases h with
  | all hrest => exact .all (hrest.cons he)
  | upTo hrest hbefore hlast =>
    rw [← List.append_cons] at hlast
    rw [hrest]
    exact .upTo (List.cons_append ..).symm (hbefore.cons he) hlast

/-- A whole offer reaches entries up to the first one that is refused. -/
theorem run_offerAll_of_holds (h : s.Holds reached t) (entries : List (SideKey × Vec α)) :
    ∃ outcome tried u, (offerAll entries).run t = (outcome, u) ∧
      s.Attempts reached entries outcome tried ∧ s.Holds (reached ++ tried) u := by
  induction entries generalizing reached t with
  | nil =>
    refine ⟨.ok (), [], t, rfl, .all .nil, ?_⟩
    rwa [List.append_nil]
  | cons e rest ih =>
    have hrun : (offerAll (e :: rest)).run t =
        (offer e.1 e.2 >>= fun _ => offerAll rest).run t := rfl
    obtain ⟨u, hu, ⟨hrefused, hoffer⟩ | ⟨hpassed, hoffer⟩⟩ := run_offer_of_holds h e
    · refine ⟨_, [e], u, ?_, .upTo (List.nil_append (e :: rest)).symm .nil ?_, hu⟩
      · rw [hrun, run_bind, hoffer]
      · rwa [List.append_nil]
    · obtain ⟨outcome, tried, w, hw, hattempts, hholds⟩ := ih hu
      refine ⟨outcome, e :: tried, w, ?_, hattempts.cons hpassed, ?_⟩
      · rw [hrun, run_bind_of_ok hoffer, hw]
      · rwa [List.append_cons]

/-- Offers in a row, after other entries were reached. -/
theorem makeAll_of_holds (h : s.Holds reached t) (offers : List (Offer α)) :
    ∃ tried : List (List (SideKey × Vec α)), tried.length = offers.length ∧
      (Offer.makeAll t offers).1.length = offers.length ∧
      (∀ i ≤ offers.length, s.Holds (reached ++ (tried.take i).flatten)
        (Offer.makeAll t (offers.take i)).2) ∧
      ∀ i o outcome entries, offers[i]? = some o → (Offer.makeAll t offers).1[i]? = some outcome →
        tried[i]? = some entries →
          s.Attempts (reached ++ (tried.take i).flatten) o.entries outcome entries := by
  induction offers generalizing reached t with
  | nil =>
    refine ⟨[], rfl, rfl, fun i hi => ?_, fun i o _ _ ho => by simp at ho⟩
    rw [List.take_nil, List.take_nil, List.flatten_nil, List.append_nil]
    exact h
  | cons o rest ih =>
    obtain ⟨outcome, first, u, hrun, hattempts, hu⟩ := run_offerAll_of_holds h o.entries
    rw [← Offer.make_eq_offerAll] at hrun
    obtain ⟨tried, hlength, houtcomes, hholds, hlater⟩ := ih hu
    have hall (later : List (Offer α)) : Offer.makeAll t (o :: later) =
        (outcome :: (Offer.makeAll u later).1, (Offer.makeAll u later).2) := by
      rw [Offer.makeAll, hrun]
    rw [hall]
    refine ⟨first :: tried, by simp [hlength], by simp [houtcomes], fun i hi => ?_, ?_⟩
    · cases i with
      | zero =>
        rw [List.take_zero, List.take_zero, List.flatten_nil, List.append_nil]
        exact h
      | succ i =>
        rw [List.take_succ_cons, List.take_succ_cons, hall, List.flatten_cons,
          ← List.append_assoc]
        exact hholds i (Nat.le_of_succ_le_succ hi)
    · intro i o' outcome' entries ho houtcome hentries
      cases i with
      | zero =>
        cases ho
        cases houtcome
        cases hentries
        rw [List.take_zero, List.flatten_nil, List.append_nil]
        exact hattempts
      | succ i =>
        rw [List.take_succ_cons, List.flatten_cons, ← List.append_assoc]
        exact hlater i o' outcome' entries ho houtcome hentries

end Store

/-! ## Offers in a row -/

/-- Whatever is offered in a row, every offer reaches its entries up to the first one that is
refused, and after every offer each place holds what it held before, or else the first
vector of the right cardinality among the entries that were reached.  Nothing else
changes. -/
theorem first_offers_are_kept (s : Store α) (offers : List (Offer α)) :
    ∃ tried : List (List (SideKey × Vec α)), tried.length = offers.length ∧
      (Offer.makeAll s offers).1.length = offers.length ∧
      (∀ i ≤ offers.length,
        s.Holds (tried.take i).flatten (Offer.makeAll s (offers.take i)).2) ∧
      ∀ i o outcome entries, offers[i]? = some o → (Offer.makeAll s offers).1[i]? = some outcome →
        tried[i]? = some entries →
          s.Attempts (tried.take i).flatten o.entries outcome entries := by
  obtain ⟨tried, hlength, houtcomes, hholds, hattempts⟩ :=
    Store.makeAll_of_holds (Store.Holds.refl s) offers
  exact ⟨tried, hlength, houtcomes, hholds, hattempts⟩

/-- The second user has nothing yet when a vector of the wrong size comes, so the third one
is not reached.  The first one has a vector by then, and further sizes do not matter. -/
example :
    let one : Vec ℚ := .dense #[5]
    let two : Vec ℚ := .dense #[6, 7]
    let shape : Shape ℚ := ⟨.ofInt 0, 0, false, .ofInt 1, .ofInt 0, .ofInt 0⟩
    let run := Offer.makeAll ⟨shape, .empty, .empty, [], ⟨fun _ => 0, 0⟩⟩
      [.users ⟨[(.int 1, one), (.int 2, two), (.int 3, one)]⟩, .user (.int 1) two]
    run.1 = [.error (.sideCardinality .user 2 "1"), .ok ()] ∧
      run.2.sides.keys = [.user (.int 1)] := by
  decide +kernel

end LatentFactors
