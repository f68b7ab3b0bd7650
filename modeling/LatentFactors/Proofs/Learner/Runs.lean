import LatentFactors.Proofs.Learner.Step

/-!
# Runs of a learner

A run is any list of actions on a store, in any order: users and items are
prepared, side information is given and forgotten, ratings are learned and
predicted.  An action that fails is a part of the run like any other.

`Learner.Change` says what one action can do to a store, and every action does
one of these things (`Learner.change_perform`).  A property that no change
breaks holds after every run (`Learner.after_induction`).
-/

namespace LatentFactors

/-- An action of a run. -/
inductive Action (α : Type) where
  | touchUser (user : Id)
  | touchItem (item : Id)
  | setSide (key : SideKey) (v : Vec α)
  | removePair (user item : Id)
  | train (user item : Id) (y : Numeral α)
  | predict (user item : Id)
  | predictFull (user item : Id)

namespace Learner

variable {α : Type} [Scalar α]

/-- Performs one action. -/
def perform (l : Learner α) : Action α → StoreM α Unit
  | .touchUser user => Store.touch .userFactors user
  | .touchItem item => Store.touch .itemFactors item
  | .setSide key v => Store.setSide key v
  | .removePair user item => Store.removeSide (.pair user item)
  | .train user item y => l.train user item y
  | .predict user item => do let _ ← l.predict user item
  | .predictFull user item => do let _ ← l.predictFull user item

/-- Performs one action and gives what it predicts, which is nothing for most
actions. -/
def respond (l : Learner α) : Action α → StoreM α (List α)
  | .predict user item => l.predict user item
  | .predictFull user item => l.predictFull user item
  | action => do
    l.perform action
    return []

/-- A response leaves the store that the action leaves. -/
theorem snd_run_respond (l : Learner α) (action : Action α) (s : Store α) :
    ((l.respond action).run s).2 = ((l.perform action).run s).2 := by
  cases action with
  | predict user item => exact (Stateful.snd_run_bind_pure ..).symm
  | predictFull user item => exact (Stateful.snd_run_bind_pure ..).symm
  | touchUser _ | touchItem _ | setSide _ _ | removePair _ _ | train _ _ _ =>
    exact Stateful.snd_run_bind_pure ..

/-- The store after a run. -/
def after (l : Learner α) (actions : List (Action α)) (s : Store α) : Store α :=
  actions.foldl (fun t action => ((l.perform action).run t).2) s

theorem after_append (l : Learner α) (before later : List (Action α)) (s : Store α) :
    l.after (before ++ later) s = l.after later (l.after before s) :=
  List.foldl_append

theorem after_cons (l : Learner α) (action : Action α) (later : List (Action α)) (s : Store α) :
    l.after (action :: later) s = l.after later ((l.perform action).run s).2 := rfl

/-- What one action can do to a store. -/
inductive Change (l : Learner α) (s : Store α) : Store α → Prop where
  /-- Families of a user and an item start, or nothing happens. -/
  | grow (user item : Id) (t : Store α) (h : s.Grows user item t) : Change l s t
  /-- Side information of the right size is given. -/
  | give (key : SideKey) (v : Vec α) (h : (s.shape.sideSize key.owner).isExactly v.size = true) :
    Change l s { s with sides := s.sides.insert key v }
  /-- Side information is forgotten. -/
  | forget (key : SideKey) : Change l s { s with sides := s.sides.erase key }
  /-- What was gathered is improved, and the improvement is written. -/
  | learn (user item : Id) (y : Numeral α) (g : Gathered α) (u : Store α) (new : Improved α)
    (hgather : (l.gather user item).run s = (.ok g, u)) (himprove : l.improve y g = .ok new) :
    Change l s (u.accept user item new)

theorem change_train (l : Learner α) (user item : Id) (y : Numeral α) (s : Store α) :
    l.Change s ((l.train user item y).run s).2 := by
  rcases hrun : (l.train user item y).run s with ⟨r, t⟩
  rcases train_cases hrun with ⟨rfl, -⟩ | ⟨-, hgrows, -⟩ | ⟨g, u, new, hgather, himprove, -, rfl⟩
  · exact .grow user item _ (.refl _)
  · exact .grow user item t hgrows
  · exact .learn user item y g u new hgather himprove

/-- Every action does one of these things to a store. -/
theorem change_perform (l : Learner α) (action : Action α) (s : Store α) :
    l.Change s ((l.perform action).run s).2 := by
  cases action with
  | touchUser user => exact .grow user user _ (Store.touch_moves .userFactors user s)
  | touchItem item => exact .grow item item _ (Store.touch_moves .itemFactors item s)
  | setSide key v =>
    show l.Change s ((Store.setSide key v).run s).2
    rw [Store.run_setSide]
    split
    · next hsize => exact .give key v hsize
    · exact .grow ⟨.nothing, none⟩ ⟨.nothing, none⟩ s (.refl s)
  | removePair user item => exact .forget (.pair user item)
  | train user item y => exact change_train l user item y s
  | predict user item =>
    have hmoves : Store.Moves (Store.Grows user item) (l.perform (.predict user item)) :=
      .bind (predict_moves l user item) fun _ _ _ _ => .pure _
    exact .grow user item _ (hmoves s)
  | predictFull user item =>
    have hmoves : Store.Moves (Store.Grows user item) (l.perform (.predictFull user item)) :=
      .bind (predictFull_moves l user item) fun _ _ _ _ => .pure _
    exact .grow user item _ (hmoves s)

/-- A property that no change breaks holds after every run. -/
theorem after_induction {l : Learner α} {P : Store α → Prop} {s : Store α} (hs : P s)
    (hchange : ∀ s t, P s → l.Change s t → P t) (actions : List (Action α)) :
    P (l.after actions s) := by
  induction actions generalizing s with
  | nil => exact hs
  | cons action later ih =>
    rw [after_cons]
    exact ih (hchange s _ hs (change_perform l action s))

/-! ## Sizes and families of a run -/

theorem Change.shape_eq {l : Learner α} {s t : Store α} (h : l.Change s t) : t.shape = s.shape := by
  cases h with
  | grow user item t h => exact h.shape
  | give key v h => rfl
  | forget key => rfl
  | learn user item y g u new hgather himprove =>
    exact ((gather_moves l user item).of_run hgather).shape

theorem shape_after (l : Learner α) (actions : List (Action α)) (s : Store α) :
    (l.after actions s).shape = s.shape :=
  after_induction (P := fun t => t.shape = s.shape) rfl
    (fun _ _ hs h => h.shape_eq.trans hs) actions

end Learner

namespace Store

variable {α : Type}

/-- A property of all families is kept by writing families with it. -/
theorem Families.withFamilies {F : FamilyKind → Family α → Prop} {s : Store α}
    (hs : s.Families F) {families : List (FamilyKey × Family α)}
    (h : ∀ e ∈ families, F e.1.kind e.2) : (s.withFamilies families).Families F := by
  induction families generalizing s with
  | nil => exact hs
  | cons e rest ih =>
    have hfirst : ({ s with families := s.families.insert e.1 e.2 } : Store α).Families F := by
      intro key family hfind
      rw [Table.find?_insert] at hfind
      split at hfind
      · next hkey =>
        injection hfind with hfind
        rw [← (FamilyKey.beq_iff.1 hkey).1, ← hfind]
        exact h e List.mem_cons_self
      · exact hs key family hfind
    exact ih hfirst fun a ha => h a (List.mem_cons_of_mem e ha)

theorem families_accept {F : FamilyKind → Family α → Prop} {s : Store α} {user item : Id}
    {new : Improved α} (hs : s.Families F) (husers : F .userFactors new.users)
    (hitems : F .itemFactors new.items) (hterms : ∀ e ∈ new.terms, F e.1.kind e.2) :
    (s.accept user item new).Families F := by
  have hcuts : ({ s with cuts := new.cuts } : Store α).Families F := hs
  refine hcuts.withFamilies fun e he => ?_
  rcases Improved.mem_families.1 he with rfl | rfl | he
  · exact husers
  · exact hitems
  · exact hterms e he

theorem families_create [Scalar α] (F : FamilyKind → Family α → Prop) (shape : Shape α)
    (draws : Draws α) : (create shape draws).Families F := by
  intro key family hfind
  cases hfind

end Store

end LatentFactors
