import LatentFactors.Proofs.Learner.Frame
import LatentFactors.Proofs.Learner.Runs
import LatentFactors.Proofs.Store.Blocks
import Mathlib.Data.List.Induction

/-!
# Blocks of draws in a run

Actions read before they write.  What an action reads, `Learner.reads`, starts the
families that are not there, and these get the next blocks of draws
(`Learner.reads_deals`).  Writing replaces families that are there, and takes no
draws (`Learner.perform_overwrites`).

So after every run from a new store there is one block for every user and every item
(`Learner.balanced_after`), and each of them started from its block when it was first
read (`Learner.born_after`).
-/

namespace LatentFactors

variable {α : Type}

namespace Store

/-- What writing leaves alone: the sizes, the draws and which families there are. -/
structure Overwrites (s t : Store α) : Prop where
  shape : t.shape = s.shape
  draws : t.draws = s.draws
  keys : t.families.keys = s.families.keys

theorem Overwrites.refl (s : Store α) : s.Overwrites s := ⟨rfl, rfl, rfl⟩

theorem Overwrites.keys_factors {s t : Store α} (h : s.Overwrites t) :
    t.factors.keys = s.factors.keys := by
  rw [factors, factors, Table.keys_restrict, Table.keys_restrict, h.keys]

theorem Overwrites.balanced [Scalar α] {s t : Store α} (h : s.Overwrites t) {n first : Nat}
    (hs : s.Balanced n first) : t.Balanced n first := by
  refine ⟨by rw [h.shape, hs.size], ?_⟩
  rw [h.draws, hs.taken, h.keys_factors, h.shape]

/-- No family is added where all families that are written are there. -/
theorem withFamilies_overwrites {written : List (FamilyKey × Family α)} {s : Store α}
    (h : ∀ e ∈ written, s.families.contains e.1 = true) :
    s.Overwrites (s.withFamilies written) := by
  induction written generalizing s with
  | nil => exact .refl s
  | cons e rest ih =>
    have hkeys : (s.families.insert e.1 e.2).keys = s.families.keys := by
      rw [Table.keys_insert, if_pos (h e List.mem_cons_self)]
    have hrest := @ih { s with families := s.families.insert e.1 e.2 } fun e' he' => by
      rw [Table.contains_iff, hkeys, ← Table.contains_iff]
      exact h e' (List.mem_cons_of_mem e he')
    exact ⟨hrest.shape, hrest.draws, hrest.keys.trans hkeys⟩

end Store

namespace Learner

variable [Scalar α] {l : Learner α} {user item : Id} {y : Numeral α} {s t u : Store α}
  {g : Gathered α} {new : Improved α}

/-- What is computed for a user and an item replaces what was gathered. -/
theorem accept_overwrites (hgather : (l.gather user item).run s = (.ok g, u))
    (himprove : l.improve y g = .ok new) : u.Overwrites (u.accept user item new) := by
  have hread := readFrom_of_run hgather
  obtain ⟨scored, predicted, himproves⟩ := improve_eq_ok himprove
  have hcontains : ∀ key ∈ l.familyKeys user item, u.families.contains key = true := by
    intro key hkey
    rw [Table.contains]
    rcases mem_familyKeys.1 hkey with rfl | rfl | ⟨term, hterm, rfl⟩
    · rw [hread.users]
      rfl
    · rw [hread.items]
      rfl
    · rw [← hread.terms] at hterm
      obtain ⟨x, hx, rfl⟩ := List.mem_map.1 hterm
      rw [hread.parameters x hx]
      rfl
  have hwrites : ({ u with cuts := new.cuts } : Store α).Overwrites (u.accept user item new) := by
    refine Store.withFamilies_overwrites fun e he => hcontains e.1 ?_
    rw [← himproves.keys hread]
    exact List.mem_map_of_mem he
  exact ⟨hwrites.shape, hwrites.draws, hwrites.keys⟩

/-! ## Reading and writing -/

/-- What a step reads if the observed value is accepted. -/
def consult (l : Learner α) (user item : Id) (y : Numeral α) : StoreM α (Gathered α) := do
  Store.lift l.requireScope
  Store.lift (l.gradient.checkLabel y (← get).shape.classCount)
  l.gather user item

/-- A step reads, computes and writes. -/
theorem train_eq (l : Learner α) (user item : Id) (y : Numeral α) :
    l.train user item y = (l.consult user item y >>= fun old => do
      commit user item (← Store.lift (l.improve y old))) := by
  simp only [train, consult, bind_assoc]

theorem gather_of_consult (h : (l.consult user item y).run s = (.ok g, u)) :
    (l.gather user item).run s = (.ok g, u) := by
  obtain ⟨_, _, hscope, h⟩ := Store.run_bind_eq_ok.1 h
  obtain ⟨_, _, hget, h⟩ := Store.run_bind_eq_ok.1 h
  obtain ⟨_, _, hlabel, h⟩ := Store.run_bind_eq_ok.1 h
  cases hget
  rw [Store.run_lift] at hscope hlabel
  cases (Prod.mk.inj hscope).2
  cases (Prod.mk.inj hlabel).2
  exact h

/-- What an action does before it writes. -/
def reads (l : Learner α) : Action α → StoreM α Unit
  | .train user item y => do let _ ← l.consult user item y
  | action => l.perform action

theorem train_overwrites (l : Learner α) (user item : Id) (y : Numeral α) (s : Store α) :
    Store.Overwrites ((l.consult user item y).run s).2 ((l.train user item y).run s).2 := by
  rw [train_eq, Store.run_bind]
  rcases hconsult : (l.consult user item y).run s with ⟨e | g, u⟩
  · exact .refl u
  · dsimp only
    rw [Store.run_bind, Store.run_lift]
    cases himprove : l.improve y g with
    | error e => exact .refl u
    | ok new =>
      have hgather := gather_of_consult hconsult
      dsimp only
      rw [run_commit_of_improve hgather himprove]
      exact accept_overwrites hgather himprove

/-- After reading, an action takes no draws and adds no family. -/
theorem perform_overwrites (l : Learner α) (action : Action α) (s : Store α) :
    Store.Overwrites ((l.reads action).run s).2 ((l.perform action).run s).2 := by
  cases action with
  | train user item y =>
    rw [reads, Stateful.snd_run_bind_pure]
    exact train_overwrites l user item y s
  | touchUser _ | touchItem _ | setSide _ _ | removePair _ _ | predict _ _ | predictFull _ _ =>
    exact .refl _

/-! ## Blocks -/

variable {n first : Nat}

theorem gather_deals (l : Learner α) (user item : Id) :
    Store.Moves (Store.Deals n first) (l.gather user item) :=
  moves_gather fun key _ => Store.family_deals key.kind key.owner

/-- While an action reads, new families get the next blocks. -/
theorem reads_deals (l : Learner α) (action : Action α) :
    Store.Moves (Store.Deals n first) (l.reads action) := by
  have hscores (user item : Id) :
      Store.Moves (Store.Deals n first) (l.linearCombination user item) :=
    .bind (.lift _) fun _ _ _ _ => .bind (l.gather_deals user item) fun _ _ _ _ => .lift _
  cases action with
  | touchUser user => exact .bind (Store.family_deals _ user) fun _ _ _ _ => .pure _
  | touchItem item => exact .bind (Store.family_deals _ item) fun _ _ _ _ => .pure _
  | setSide key v =>
    intro s
    show Store.Deals n first s ((Store.setSide key v).run s).2
    rw [Store.run_setSide]
    split <;> exact .of_families rfl rfl rfl
  | removePair user item => exact fun s => .of_families rfl rfl rfl
  | train user item y =>
    refine .bind ?_ fun _ _ _ _ => .pure _
    refine .bind (.lift _) fun _ _ _ _ => .bind .get fun _ _ _ _ => ?_
    exact .bind (.lift _) fun _ _ _ _ => l.gather_deals user item
  | predict user item =>
    exact .bind (.bind (hscores user item) fun _ _ _ _ => .lift _) fun _ _ _ _ => .pure _
  | predictFull user item =>
    exact .bind (.bind (hscores user item) fun _ _ _ _ => .lift _) fun _ _ _ _ => .pure _

/-- A run takes one block of draws for every user and every item. -/
theorem balanced_after (l : Learner α) (hs : s.Balanced n first) (actions : List (Action α)) :
    (l.after actions s).Balanced n first ∧ (l.after actions s).shape = s.shape ∧
      (l.after actions s).draws.source = s.draws.source := by
  induction actions generalizing s with
  | nil => exact ⟨hs, rfl, rfl⟩
  | cons action later ih =>
    have hdealing := l.reads_deals action s hs
    have hwrites := l.perform_overwrites action s
    obtain ⟨hbalanced, hshape, hsource⟩ := ih (hwrites.balanced hdealing.balanced)
    refine ⟨hbalanced, ?_, ?_⟩
    · exact hshape.trans (hwrites.shape.trans hdealing.shape)
    · exact hsource.trans ((congrArg Draws.source hwrites.draws).trans hdealing.source)

/-- A family of factors was not there before one of the actions, and this one started
it from a block of draws when it read it. -/
def Born (l : Learner α) (n : Nat) (s : Store α) (actions : List (Action α)) (key : FamilyKey)
    (place : Nat) : Prop :=
  ∃ before action later, actions = before ++ action :: later ∧
    (l.after before s).families.find? key = none ∧
    ∃ intercept, key.kind.role = .factors intercept ∧
      ((l.reads action).run (l.after before s)).2.families.find? key =
        some (Store.block s.shape s.draws.source n intercept place)

/-- In a run from a store without factors, every one starts from the block at its
place. -/
theorem born_after (l : Learner α) (hs : s.Balanced n first) (hnone : s.factors.keys = [])
    (actions : List (Action α)) {place : Nat} {key : FamilyKey}
    (h : (l.after actions s).factors.keys[place]? = some key) :
    l.Born n s actions key (first + place * s.shape.blockSize n) := by
  induction actions using List.reverseRecOn with
  | nil =>
    rw [show l.after [] s = s from rfl, hnone] at h
    cases h
  | append_singleton before action ih =>
    obtain ⟨hbalanced, hshape, hsource⟩ := l.balanced_after hs before
    have hdealing := l.reads_deals action (l.after before s) hbalanced
    have hkeys := (l.perform_overwrites action (l.after before s)).keys_factors
    rw [after_append, after_cons] at h
    change ((l.perform action).run (l.after before s)).2.factors.keys[place]? = some key at h
    rw [hkeys] at h
    by_cases hplace : place < (l.after before s).factors.keys.length
    · -- The family was there before the last action.
      obtain ⟨added, hadded⟩ := hdealing.keys_factors
      rw [← hadded, List.getElem?_append_left hplace] at h
      obtain ⟨earlier, birth, later, rfl, hborn⟩ := ih h
      exact ⟨earlier, birth, later ++ [action], by simp, hborn⟩
    · obtain ⟨hnew, hstarts⟩ := hdealing.dealt place key (Nat.not_lt.1 hplace) h
      rw [hshape, hsource] at hstarts
      exact ⟨before, action, [], rfl, hnew, hstarts⟩

end Learner

end LatentFactors
