import LatentFactors.Proofs.Learner.Equivalent
import LatentFactors.Proofs.Recommender.Calls

/-!
# Asking leaves no trace

Reading a family creates it if it is not there, and a family of factors starts
from random draws.  A question about a user is answered without that: it reads
only factors of users and items that are known, so all that it can start are
zero parameters (`Recommender.ask_leaves`).

A recommender answers every call alike from stores that cannot be told apart,
and leaves such stores (`Recommender.answer_matches`).  So questions can be put
into a session anywhere, and all other answers stay as they were
(`Recommender.session_matches`).

`Recommender.Matches retime` relates recommenders with such stores.  Their
numbers of epochs are related by `retime`, because a session does not change
that number and an experiment does not look at it.
-/

namespace LatentFactors.Recommender

variable {α β γ : Type}

variable [Scalar α]

/-- The same recommender with another number of epochs, and with a store that
cannot be told apart. -/
def Matches (retime : Setting α → Setting α) (r r' : Recommender α) : Prop :=
  ∃ store, r' = { r with epochs := retime r.epochs, store } ∧ r.store.Equivalent store

/-! ## Two runs -/

section

variable {retime : Setting α → Setting α}

theorem onStore_matches {Q : β → γ → Prop} {op : StoreM α β} {op' : StoreM α γ}
    (h : Store.Couples Store.Equivalent Q op op') :
    Stateful.Couples (Matches retime) Q (onStore op) (onStore op') := by
  rintro r _ ⟨store, rfl, hstore⟩
  obtain ⟨hagree, hafter⟩ := h r.store store hstore
  exact ⟨hagree, _, rfl, hafter⟩

theorem tellApart_matches (id : Id) :
    Stateful.Couples (Matches retime) Eq (tellApart id : RecommenderM α Id) (tellApart id) := by
  unfold tellApart
  split
  · refine .bind (.modify ?_) fun _ _ _ => .bind .get ?_
    · rintro r _ ⟨store, rfl, hstore⟩
      exact ⟨store, rfl, hstore⟩
    · rintro r _ ⟨store, rfl, -⟩
      exact .pure rfl
  · exact .pure rfl

theorem addRating_matches (user item : Id) (y : Numeral α) :
    Stateful.Couples (Matches retime) Eq (addRating user item y) (addRating user item y) := by
  refine .bind (.modify ?_) fun _ _ _ => .bind .get ?_
  · rintro r _ ⟨store, rfl, hstore⟩
    exact ⟨store, rfl, hstore⟩
  · rintro r _ ⟨store, rfl, -⟩
    exact onStore_matches (r.learner.train_equivalent user item y)

theorem predictAll_matches (user item : Id) :
    Stateful.Couples (Matches (α := α) retime) Eq (predictAll user item)
      (predictAll user item) := by
  refine .bind .get ?_
  rintro r _ ⟨store, rfl, -⟩
  exact onStore_matches (r.learner.predictFull_equivalent user item)

/-- Recommenders that cannot be told apart run side by side. -/
theorem matches_parallel : Parallel (Matches (α := α) retime) where
  strategy_eq := by
    rintro r _ ⟨store, rfl, -⟩
    rfl
  target_eq := by
    rintro r _ ⟨store, rfl, -⟩
    rfl
  knows_user := by
    rintro r _ ⟨store, rfl, hstore⟩ user
    exact hstore.hasFamily_eq rfl user
  knows_item := by
    rintro r _ ⟨store, rfl, hstore⟩ item
    exact hstore.hasFamily_eq rfl item
  tellApart := tellApart_matches
  touch kind id := onStore_matches (Store.touch_equivalent kind id)
  offer sides := onStore_matches (Store.offerAll_equivalent sides)
  rating := addRating_matches
  predict := predictAll_matches

theorem eligible_eq {r r' : Recommender α} (h : Matches retime r r') (user : Id)
    (candidates : Option (List Id)) : r'.eligible user candidates = r.eligible user candidates := by
  obtain ⟨store, rfl, hstore⟩ := h
  rw [eligible, eligible]
  dsimp only
  rw [hstore.owners_eq rfl]
  refine List.filter_congr fun item _ => ?_
  rw [hstore.hasFamily_eq rfl item]
  rfl

theorem recommend_matches (user : Id) (n : Int) (candidates : Option (List Id)) :
    Stateful.Couples (Matches (α := α) retime) Eq (recommend user n candidates)
      (recommend user n candidates) := by
  intro r t hrt
  rw [run_recommend, run_recommend, eligible_eq hrt, matches_parallel.target_eq hrt,
    matches_parallel.knows_user hrt user]
  split
  · exact matches_parallel.rank user n _ r.target r t hrt
  · exact ⟨.ok rfl, hrt⟩

end

theorem epochs_matches (r t : Recommender α) (h : Matches id r t) : t.epochs = r.epochs := by
  obtain ⟨store, rfl, -⟩ := h
  rfl

/-- Every call is answered alike from stores that cannot be told apart. -/
theorem answer_matches (call : Call α) :
    Stateful.Couples (Matches id) Eq (answer call) (answer call) := by
  by_cases hcall : ∀ user n candidates, call ≠ .ask (.recommend user n candidates)
  · exact matches_parallel.answer epochs_matches hcall
  · simp only [not_forall, not_not] at hcall
    obtain ⟨user, n, candidates, rfl⟩ := hcall
    refine .bind (recommend_matches user n candidates) ?_
    rintro ranking _ rfl
    exact .pure rfl

/-! ## Questions -/

instance : IsPreorder (Recommender α) (Matches id) where
  refl r := ⟨r.store, rfl, .refl r.store⟩
  trans := by
    rintro r _ _ ⟨store, rfl, h⟩ ⟨store', rfl, h'⟩
    exact ⟨store', rfl, h.trans h'⟩

theorem Matches.symm {r r' : Recommender α} (h : Matches id r r') : Matches id r' r := by
  obtain ⟨store, rfl, hstore⟩ := h
  exact ⟨r.store, rfl, hstore.symm⟩

/-- A user and some items have factors. -/
def Knows (user : Id) (items : List Id) (r : Recommender α) : Prop :=
  r.store.hasFamily .userFactors user = true ∧
    ∀ item ∈ items, r.store.hasFamily .itemFactors item = true

/-- If a user and some items have factors, nothing changes that can be told. -/
def KeepsKnown (user : Id) (items : List Id) (r t : Recommender α) : Prop :=
  Knows user items r → Matches id r t

instance (user : Id) (items : List Id) :
    IsPreorder (Recommender α) (KeepsKnown user items) where
  refl r _ := refl_of (Matches id) r
  trans r t u h h' hr := by
    refine trans_of (Matches id) (h hr) (h' ?_)
    obtain ⟨store, rfl, hstore⟩ := h hr
    refine ⟨(hstore.hasFamily_eq rfl user).trans hr.1, fun item hitem => ?_⟩
    exact (hstore.hasFamily_eq rfl item).trans (hr.2 item hitem)

theorem predictAll_keepsKnown {user item : Id} {items : List Id} (h : item ∈ items) :
    Stateful.Moves (KeepsKnown (α := α) user items) (predictAll user item) :=
  fun r hr => ⟨_, rfl, r.learner.predictFull_moves_equivalent hr.1 (hr.2 item h)⟩

theorem estimate_keepsKnown {user item : Id} {items : List Id} (h : item ∈ items) :
    Stateful.Moves (KeepsKnown (α := α) user items) (estimate user item) :=
  moves_estimate (predictAll_keepsKnown h)

/-- Estimates are made only for known items of a known user. -/
theorem predictForUser_leaves (user : Id) (items : List Id) :
    Stateful.Moves (Matches (α := α) id) (predictForUser user items) := by
  intro r
  rw [predictForUser, Stateful.run_bind, Stateful.run_get]
  dsimp only
  split
  · next huser =>
    have hmoves : Stateful.Moves (KeepsKnown (α := α) user []) (items.mapM fun item => do
        if (← get).store.hasFamily .itemFactors item then return some (← estimate user item)
        else return none) := by
      refine .mapM fun item _ t ht => ?_
      rw [Stateful.run_bind, Stateful.run_get]
      dsimp only
      split
      · next hitem =>
        have hstep : Stateful.Moves (KeepsKnown (α := α) user [item])
            (do return some (← estimate user item)) :=
          .bind (estimate_keepsKnown (List.mem_singleton_self item)) fun _ _ _ _ => .pure _
        refine hstep t ⟨ht.1, fun i hi => ?_⟩
        rw [List.mem_singleton.1 hi]
        exact hitem
      · exact refl_of (Matches id) t
    exact hmoves r ⟨huser, by simp⟩
  · exact refl_of (Matches id) r

/-- Only known items of a known user are scored. -/
theorem recommend_leaves (user : Id) (n : Int) (candidates : Option (List Id)) :
    Stateful.Moves (Matches (α := α) id) (recommend user n candidates) := by
  intro r
  rw [recommend, Stateful.run_bind, Stateful.run_get]
  dsimp only
  split
  · next huser =>
    have hmoves : Stateful.Moves (KeepsKnown user (r.eligible user candidates)) (do
        let scored ← (r.eligible user candidates).mapM fun item => do
          return (item, ← lift (targetScore (← predictAll user item) r.target))
        return head n (scored.mergeSort fun a b => ranksBefore (α := α) a.2 b.2)) := by
      refine .bind (.mapM fun item hitem => ?_) fun _ _ _ _ => .pure _
      refine .bind (predictAll_keepsKnown hitem) fun _ _ _ _ => ?_
      exact .bind (.lift _) fun _ _ _ _ => .pure _
    refine hmoves r ⟨huser, fun item hitem => ?_⟩
    have hkept := (List.mem_filter.1 hitem).2
    rw [Bool.and_eq_true] at hkept
    exact hkept.2
  · exact refl_of (Matches id) r

/-- A question about a user changes nothing that can be told, also when it is
not answered. -/
theorem ask_leaves (inquiry : Inquiry) :
    Stateful.Moves (Matches (α := α) id) (answerInquiry inquiry) := by
  cases inquiry with
  | predictForUser user items =>
    exact .bind (predictForUser_leaves user items) fun _ _ _ _ => .pure _
  | recommend user n candidates =>
    exact .bind (recommend_leaves user n candidates) fun _ _ _ _ => .pure _

/-! ## Sessions -/

/-- A call of a session, or a question that is put into it. -/
abbrev Planned (α : Type) := Inquiry ⊕ Call α

/-- All calls of a session into which questions were put. -/
def allCalls (plan : List (Planned α)) : List (Call α) := plan.map (Sum.elim .ask id)

/-- The calls of the session without the questions. -/
def ownCalls (plan : List (Planned α)) : List (Call α) := plan.filterMap Sum.getRight?

/-- The answers to the calls of the session, among the answers to all calls. -/
def ownAnswers (plan : List (Planned α)) (answers : List (Outcome α (Answer α))) :
    List (Outcome α (Answer α)) :=
  (plan.zip answers).filterMap fun (planned, answer) => planned.getRight?.map fun _ => answer

/-- Questions can be put into a session anywhere: all other answers stay as they
were, and so does everything that can be told of the recommender. -/
theorem session_matches (plan : List (Planned α)) :
    ∀ r r' : Recommender α, Matches id r r' →
      (session (ownCalls plan) r').1 = ownAnswers plan (session (allCalls plan) r).1 ∧
        Matches id (session (allCalls plan) r).2 (session (ownCalls plan) r').2 := by
  induction plan with
  | nil => exact fun r r' h => ⟨rfl, h⟩
  | cons planned later ih =>
    intro r r' h
    cases planned with
    | inl inquiry =>
      -- The question changes nothing that can be told, and its answer is left out.
      have hasked : Matches id ((answerInquiry inquiry).run r).2 r' :=
        trans_of (Matches id) (ask_leaves inquiry r).symm h
      exact ih _ _ hasked
    | inr call =>
      obtain ⟨hagree, hafter⟩ := answer_matches call r r' h
      obtain ⟨hanswers, hend⟩ := ih _ _ hafter
      refine ⟨?_, hend⟩
      show ((answer call).run r').1 :: (session (ownCalls later) ((answer call).run r').2).1 =
        ((answer call).run r).1 ::
          ownAnswers later (session (allCalls later) ((answer call).run r).2).1
      rw [hanswers, hagree.eq]

end LatentFactors.Recommender
