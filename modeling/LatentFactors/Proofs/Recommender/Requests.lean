import LatentFactors.Proofs.Learner.Frame
import LatentFactors.Proofs.Recommender.Evolution

/-!
# Requests

A request is a call to a recommender, or an action of its learner on its store.  On the
store every request is a run of actions (`Recommender.serve_runs`), and so are any
requests in a row (`Recommender.exists_actions`).  What holds after every run of a learner
therefore holds of the store of a recommender, however that is used.

Families and side information that are there stay (`Learner.after_retains`), unless side
information is forgotten.  No call does that.
-/

namespace LatentFactors

variable {α : Type}

/-- Whether an action forgets side information. -/
def Action.forgets : Action α → Bool
  | .removePair _ _ => true
  | .touchUser _ | .touchItem _ | .setSide _ _ | .train _ _ _ | .predict _ _
  | .predictFull _ _ => false


variable [Scalar α]

/-! ## What actions keep -/

namespace Store

omit [Scalar α] in
theorem hasSide_insert {s : Store α} {key : SideKey} (h : s.hasSide key = true) (other : SideKey)
    (v : Vec α) : (s.sides.insert other v).contains key = true := by
  rw [Table.contains, Table.find?_insert]
  split
  · rfl
  · exact h

/-- What a request keeps that does not forget side information. -/
structure Retains (s t : Store α) : Prop where
  evolves : s.Evolves t
  sides (key : SideKey) (h : s.hasSide key = true) : t.hasSide key = true

instance : IsPreorder (Store α) Retains where
  refl s := ⟨refl_of Evolves s, fun _ h => h⟩
  trans _ _ _ h h' :=
    ⟨trans_of Evolves h.evolves h'.evolves, fun key hkey => h'.sides key (h.sides key hkey)⟩

theorem Retains.hasFamily {s t : Store α} (h : s.Retains t) {kind : FamilyKind} {owner : Id}
    (hs : s.hasFamily kind owner = true) : t.hasFamily kind owner = true := by
  obtain ⟨key, hkey, hsame⟩ := Table.contains_iff.1 hs
  exact Table.contains_iff.2 ⟨key, h.evolves.families.keys.subset hkey, hsame⟩

theorem Retains.of_sides {s t : Store α} (h : s.Evolves t) (hsides : t.sides = s.sides) :
    s.Retains t := by
  refine ⟨h, fun key hkey => ?_⟩
  rw [hasSide, hsides]
  exact hkey

theorem setSide_retains (key : SideKey) (v : Vec α) : Moves Retains (setSide key v) := by
  intro s
  refine ⟨setSide_evolves key v s, fun other hother => ?_⟩
  rw [run_setSide]
  split
  · exact hasSide_insert hother key v
  · exact hother

theorem offer_retains (key : SideKey) (v : Vec α) : Moves Retains (offer key v) := by
  refine .bind .get fun _ _ _ _ => ?_
  split
  · exact .pure _
  · exact setSide_retains key v

end Store

namespace Learner

/-- Only forgetting loses side information. -/
theorem perform_retains (l : Learner α) {action : Action α} (h : action.forgets = false) :
    Store.Moves Store.Retains (l.perform action) := by
  intro s
  have hevolves : s.Evolves ((l.perform action).run s).2 := (l.change_perform action s).evolves
  cases action with
  | touchUser user => exact .of_sides hevolves (Store.touch_moves .userFactors user s).sides
  | touchItem item => exact .of_sides hevolves (Store.touch_moves .itemFactors item s).sides
  | setSide key v => exact Store.setSide_retains key v s
  | removePair user item => cases h
  | train user item y => exact .of_sides hevolves (l.train_changesOnly user item y s).sides
  | predict user item =>
    refine .of_sides hevolves ?_
    rw [perform, Stateful.snd_run_bind_pure]
    exact (l.predict_moves user item s).sides
  | predictFull user item =>
    refine .of_sides hevolves ?_
    rw [perform, Stateful.snd_run_bind_pure]
    exact (l.predictFull_moves user item s).sides

theorem after_retains (l : Learner α) {actions : List (Action α)}
    (h : ∀ action ∈ actions, action.forgets = false) (s : Store α) :
    s.Retains (l.after actions s) := by
  induction actions generalizing s with
  | nil => exact refl_of Store.Retains s
  | cons action later ih =>
    refine trans_of Store.Retains (l.perform_retains (h action List.mem_cons_self) s) ?_
    exact ih (fun a ha => h a (List.mem_cons_of_mem action ha)) _

theorem after_evolves (l : Learner α) (actions : List (Action α)) (s : Store α) :
    s.Evolves (l.after actions s) :=
  after_induction (refl_of Store.Evolves s)
    (fun _ _ h hchange => trans_of Store.Evolves h hchange.evolves) actions

/-- A run of actions that have a property leads from one store to another. -/
def Reaches (l : Learner α) (P : Action α → Prop) (s t : Store α) : Prop :=
  ∃ actions, (∀ action ∈ actions, P action) ∧ t = l.after actions s

instance (l : Learner α) (P : Action α → Prop) : IsPreorder (Store α) (l.Reaches P) where
  refl _ := ⟨[], by simp, rfl⟩
  trans := by
    rintro s _ _ ⟨before, hbefore, rfl⟩ ⟨later, hlater, rfl⟩
    refine ⟨before ++ later, fun action haction => ?_, (l.after_append before later s).symm⟩
    exact (List.mem_append.1 haction).elim (hbefore action) (hlater action)

theorem Reaches.perform {l : Learner α} {P : Action α → Prop} {action : Action α}
    (h : P action) : Store.Moves (l.Reaches P) (l.perform action) :=
  fun _ => ⟨[action], by simpa using h, rfl⟩

end Learner

namespace Recommender

/-! ## Requests -/

/-- A request to a recommender, or to its learner and store. -/
inductive Request (α : Type) where
  | call (call : Call α)
  | act (action : Action α)

/-- Serves a request. -/
def serve : Request α → RecommenderM α Unit
  | .call call => do let _ ← answer call
  | .act action => do onStore ((← get).learner.perform action)

/-- The recommender after some requests, of which any may fail. -/
def served (requests : List (Request α)) (r : Recommender α) : Recommender α :=
  requests.foldl (fun r request => ((serve request).run r).2) r

/-- Every request keeps the learner, the target and the sizes, as calls do. -/
theorem serve_evolves (request : Request α) : Stateful.Moves Evolves (serve request) := by
  cases request with
  | call call => exact .bind (answer_evolves call) fun _ _ _ _ => .pure _
  | act action => exact fun r => ⟨rfl, rfl, (r.learner.change_perform action r.store).evolves⟩

theorem served_evolves (requests : List (Request α)) (r : Recommender α) :
    Evolves r (served requests r) := by
  induction requests generalizing r with
  | nil => exact refl_of Evolves r
  | cons request later ih => exact trans_of Evolves (serve_evolves request r) (ih _)

/-- On the store nothing happens but a run of actions that have a property. -/
def Runs (P : Action α → Prop) (r t : Recommender α) : Prop :=
  t.learner = r.learner ∧ r.learner.Reaches P r.store t.store

variable {P : Action α → Prop}

instance : IsPreorder (Recommender α) (Runs P) where
  refl r := ⟨rfl, refl_of (r.learner.Reaches P) r.store⟩
  trans := by
    rintro r t u ⟨hlearner, ht⟩ ⟨hlearner', hu⟩
    rw [hlearner] at hu
    exact ⟨hlearner'.trans hlearner, trans_of (r.learner.Reaches P) ht hu⟩

theorem tellApart_runs (id : Id) : Stateful.Moves (Runs P) (tellApart id : RecommenderM α Id) := by
  unfold tellApart
  split
  · refine .bind (fun r => ?_) fun _ _ _ _ => .bind .get fun _ _ _ _ => .pure _
    exact ⟨rfl, refl_of (r.learner.Reaches P) r.store⟩
  · exact .pure id

variable (hP : ∀ action : Action α, action.forgets = false → P action)
include hP

theorem touchUser_runs (user : Id) :
    Stateful.Moves (Runs P) (onStore (Store.touch (α := α) .userFactors user)) :=
  fun r => ⟨rfl, .perform (hP (.touchUser user) rfl) r.store⟩

theorem touchItem_runs (item : Id) :
    Stateful.Moves (Runs P) (onStore (Store.touch (α := α) .itemFactors item)) :=
  fun r => ⟨rfl, .perform (hP (.touchItem item) rfl) r.store⟩

theorem offerAll_runs (sides : List (SideKey × Vec α)) :
    Stateful.Moves (Runs P) (onStore (Store.offerAll sides)) := by
  intro r
  have hmoves : Store.Moves (r.learner.Reaches P) (Store.offerAll sides) := by
    refine .forM fun offered _ => .bind .get fun _ _ _ _ => ?_
    split
    · exact .pure _
    · exact .perform (hP (.setSide offered.1 offered.2) rfl)
  exact ⟨rfl, hmoves r.store⟩

/-- Every call is a run of actions that forget nothing. -/
theorem answer_runs (call : Call α) : Stateful.Moves (Runs P) (answer call) := by
  refine moves_answer tellApart_runs (touchUser_runs hP) (touchItem_runs hP) (offerAll_runs hP)
    (fun user item y r => ⟨rfl, ?_⟩) (fun user item r => ⟨rfl, ?_⟩) call
  · exact .perform (hP (.train user item y) rfl) r.store
  · have hstore : ((r.learner.perform (.predictFull user item)).run r.store).2 =
        ((predictAll user item).run r).2.store :=
      Stateful.snd_run_bind_pure (r.learner.predictFull user item) (fun _ => ()) r.store
    rw [← hstore]
    exact .perform (hP (.predictFull user item) rfl) r.store

/-- On the store every request is a run of actions. -/
theorem serve_runs {request : Request α} (h : ∀ action, request = .act action → P action) :
    Stateful.Moves (Runs P) (serve request) := by
  cases request with
  | call call => exact .bind (answer_runs hP call) fun _ _ _ _ => .pure _
  | act action => exact fun r => ⟨rfl, .perform (h action rfl) r.store⟩

theorem served_runs {requests : List (Request α)}
    (h : ∀ request ∈ requests, ∀ action, request = .act action → P action) (r : Recommender α) :
    Runs P r (served requests r) := by
  induction requests generalizing r with
  | nil => exact refl_of (Runs P) r
  | cons request later ih =>
    refine trans_of (Runs P) (serve_runs hP (h request List.mem_cons_self) r) ?_
    exact ih (fun q hq => h q (List.mem_cons_of_mem request hq)) _

omit hP in
/-- On the store any requests are a run of actions. -/
theorem exists_actions (requests : List (Request α)) (r : Recommender α) :
    ∃ actions, (served requests r).store = r.learner.after actions r.store := by
  have hall : ∀ action : Action α, action.forgets = false → True := fun _ _ => trivial
  have hruns : Runs (fun _ => True) r (served requests r) :=
    served_runs hall (fun _ _ _ _ => trivial) r
  obtain ⟨-, actions, -, hstore⟩ := hruns
  exact ⟨actions, hstore⟩

omit hP

/-- Requests that forget no side information. -/
abbrev Continues (r t : Recommender α) : Prop := Runs (fun action => action.forgets = false) r t

theorem Continues.retains {r t : Recommender α} (h : Continues r t) : r.store.Retains t.store := by
  obtain ⟨-, actions, hactions, hstore⟩ := h
  rw [hstore]
  exact r.learner.after_retains hactions r.store

end Recommender

end LatentFactors
