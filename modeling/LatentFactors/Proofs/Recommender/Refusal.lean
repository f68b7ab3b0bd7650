import LatentFactors.Proofs.Arithmetic.Rational
import LatentFactors.Proofs.Recommender.Ranking

/-!
# What a rejected rating leaves behind

A rating is entered into the history of its user before it is learned.  If its
value is refused the learner does nothing, so the store stays as it is, but the
entry stays as well and the item is not recommended to the user any more.

* `Recommender.run_addRating_of_rejected`: the entry is all that a rejected rating
  changes.
* `Recommender.remember_of_contains`: it changes nothing at all if the item was in
  the history already.
* `Recommender.Withholds` relates two recommenders of which one has such an entry
  more.  They stay related in every session, and their answers differ only in
  that the item is left out of the recommendations for the user
  (`Recommender.answer_withholds`).

`rejected_rating_is_remembered` puts this together for the recommenders of a
configuration.
-/

namespace LatentFactors

/-- Nothing changes if a key is given the value that it has. -/
theorem Table.insert_of_find? {κ ν : Type} [BEq κ] {t : Table κ ν} {k : κ} {v : ν}
    (h : t.find? k = some v) : t.insert k v = t := by
  obtain ⟨entries⟩ := t
  replace h : findEntry k entries = some v := h
  refine congrArg Table.mk ?_
  induction entries with
  | nil => cases h
  | cons e rest ih =>
    rw [findEntry] at h
    rw [insertEntry]
    split at h
    · next hk =>
      injection h with h
      rw [if_pos hk, ← h]
    · next hk => rw [if_neg hk, ih h]

namespace Recommender

variable {α : Type}

/-- An item is not entered twice. -/
theorem remember_of_contains {r : Recommender α} {user item : Id}
    (h : (r.history user).contains item = true) : remember user item r = r := by
  have hfind : r.rated.find? user = some (r.history user) := by
    cases hrated : r.rated.find? user with
    | none =>
      rw [history, hrated] at h
      cases h
    | some items => rw [history, hrated, Option.getD_some]
  rw [remember, if_pos h, Table.insert_of_find? hfind]

variable [Scalar α]

/-- A rating whose value is refused is entered into the history, and nothing else
happens. -/
theorem run_addRating_of_rejected {r : Recommender α} (hscope : r.learner.requireScope = .ok ())
    {y : Numeral α} {e : Fault α}
    (h : r.learner.gradient.checkLabel y r.store.shape.classCount = .error e) (user item : Id) :
    (addRating user item y).run r = (.error e, remember user item r) := by
  have htrain : (r.learner.train user item y).run r.store = (.error e, r.store) := by
    rw [Learner.run_train, hscope, Outcome.bind_ok, h]
  show (let (outcome, store) := (r.learner.train user item y).run r.store
    (outcome, { remember user item r with store })) = _
  rw [htrain]
  rfl

/-! ## One entry more -/

/-- The same recommender with an item in the history of a user, and with a store that
cannot be told apart. -/
def Withholds (user item : Id) (r t : Recommender α) : Prop :=
  ∃ store rated, t = { r with store, rated } ∧ r.store.Equivalent store ∧
    ∀ user' item', (t.history user').contains item' =
      ((r.history user').contains item' || (user == user' && item == item'))

section

variable {user item : Id}

theorem withholds_remember (user item : Id) (r : Recommender α) :
    Withholds user item r (remember user item r) :=
  ⟨r.store, _, rfl, .refl r.store, contains_history_remember r user item⟩

theorem Withholds.of_matches {r t r' t' : Recommender α} (h : Withholds user item r t)
    (hr : Matches id r r') (ht : Matches id t t') : Withholds user item r' t' := by
  obtain ⟨store, rated, rfl, hstore, hhistory⟩ := h
  obtain ⟨s, rfl, hs⟩ := hr
  obtain ⟨s', rfl, hs'⟩ := ht
  exact ⟨s', rated, rfl, hs.symm.trans (hstore.trans hs'), hhistory⟩

theorem onStore_withholds {β γ : Type} {Q : β → γ → Prop} {op : StoreM α β} {op' : StoreM α γ}
    (h : Store.Couples Store.Equivalent Q op op') :
    Stateful.Couples (Withholds user item) Q (onStore op) (onStore op') := by
  rintro r _ ⟨store, rated, rfl, hstore, hhistory⟩
  obtain ⟨hagree, hafter⟩ := h r.store store hstore
  exact ⟨hagree, _, rated, rfl, hafter, hhistory⟩

/-- Neither naming nor learning looks at the histories. -/
theorem withholds_parallel : Parallel (Withholds (α := α) user item) where
  strategy_eq := by
    rintro r _ ⟨store, rated, rfl, -⟩
    rfl
  target_eq := by
    rintro r _ ⟨store, rated, rfl, -⟩
    rfl
  knows_user := by
    rintro r _ ⟨store, rated, rfl, hstore, -⟩ owner
    exact hstore.hasFamily_eq rfl owner
  knows_item := by
    rintro r _ ⟨store, rated, rfl, hstore, -⟩ owner
    exact hstore.hasFamily_eq rfl owner
  tellApart id := by
    unfold tellApart
    split
    · refine .bind (.modify ?_) fun _ _ _ => .bind .get ?_
      · rintro r _ ⟨store, rated, rfl, h⟩
        exact ⟨store, rated, rfl, h⟩
      · rintro r _ ⟨store, rated, rfl, -⟩
        exact .pure rfl
    · exact .pure rfl
  touch kind id := onStore_withholds (Store.touch_equivalent kind id)
  offer sides := onStore_withholds (Store.offerAll_equivalent sides)
  rating user' item' y := by
    refine .bind (.modify ?_) fun _ _ _ => .bind .get ?_
    · rintro r _ ⟨store, rated, rfl, hstore, hhistory⟩
      refine ⟨store, _, rfl, hstore, fun user'' item'' => ?_⟩
      rw [contains_history_remember, contains_history_remember, hhistory]
      exact Bool.or_right_comm _ _ _
    · rintro r _ ⟨store, rated, rfl, -⟩
      exact onStore_withholds (r.learner.train_equivalent user' item' y)
  predict user' item' := by
    refine .bind .get ?_
    rintro r _ ⟨store, rated, rfl, -⟩
    exact onStore_withholds (r.learner.predictFull_equivalent user' item')

/-- What a call asks if an item is held back from a user: the item is not among the
candidates for that user. -/
def withholding (user item : Id) (r : Recommender α) : Call α → Call α
  | .ask (.recommend user' n candidates) =>
    .ask (.recommend user' n (some ((candidates.getD (r.store.owners .itemFactors)).filter
      fun item' => !(user == user' && item == item'))))
  | call => call

theorem eligible_withholds {r t : Recommender α} (h : Withholds user item r t) (user' : Id)
    (candidates : Option (List Id)) :
    t.eligible user' candidates =
      r.eligible user' (some ((candidates.getD (r.store.owners .itemFactors)).filter
        fun item' => !(user == user' && item == item'))) := by
  obtain ⟨store, rated, rfl, hstore, hhistory⟩ := h
  rw [eligible, eligible, Option.getD_some, List.filter_filter]
  dsimp only
  rw [hstore.owners_eq rfl]
  refine List.filter_congr fun item' _ => ?_
  rw [hhistory, hstore.hasFamily_eq rfl item', Bool.not_or, Bool.and_right_comm]

/-- A call is answered as if the item was held back from the user, and leaves such
recommenders again. -/
theorem answer_withholds {r t : Recommender α} (h : Withholds user item r t) (call : Call α) :
    ((answer call).run t).1 = ((answer (withholding user item r call)).run r).1 ∧
      Withholds user item ((answer call).run r).2 ((answer call).run t).2 := by
  have hepochs : ∀ r t : Recommender α, Withholds user item r t → t.epochs = r.epochs := by
    rintro r _ ⟨store, rated, rfl, -⟩
    rfl
  by_cases hcall : ∀ user n candidates, call ≠ .ask (.recommend user n candidates)
  · obtain ⟨hagree, hafter⟩ := withholds_parallel.answer hepochs hcall r t h
    have hsame : withholding user item r call = call := by
      unfold withholding
      split
      · next user' n candidates => exact absurd rfl (hcall user' n candidates)
      · rfl
    exact ⟨by rw [hsame, hagree.eq], hafter⟩
  · simp only [not_forall, not_not] at hcall
    obtain ⟨user', n, candidates, rfl⟩ := hcall
    -- The answers come from different questions, and neither of these leaves a trace.
    refine ⟨?_, h.of_matches (ask_leaves _ r) (ask_leaves _ t)⟩
    rw [withholding, answer_recommend, answer_recommend, run_recommend, run_recommend,
      eligible_withholds h, withholds_parallel.target_eq h, withholds_parallel.knows_user h user']
    split
    · rw [(withholds_parallel.rank user' n _ r.target r t h).1.eq]
    · rfl

/-- Recommenders that differ by the entry do so after every session. -/
theorem after_withholds {r t : Recommender α} (h : Withholds user item r t)
    (calls : List (Call α)) : Withholds user item (after calls r) (after calls t) := by
  induction calls generalizing r t with
  | nil => exact h
  | cons call later ih => exact ih (answer_withholds h call).2

end

/-! ## When it shows -/

/-- A prediction makes its user and its item known. -/
theorem knows_after_predictAll {l : Learner α} {r : Recommender α} (hlearner : r.learner = l)
    (hwell : r.store.WellSized) (hreadable : l.Readable r.store.shape)
    (hscope : l.requireScope = .ok ()) (user item : Id) :
    Knows user [item] (after [.predictAll user item] r) := by
  obtain ⟨g, t, scores, hgather, -, hscores, -⟩ :=
    Learner.exists_linearCombination hwell hreadable hscope user item
  have hread := Learner.readFrom_of_run hgather
  have hstore : (after [.predictAll user item] r).store = t := by
    have hrun : (predictAll user item).run r =
        (((l.predictFull user item).run r.store).1,
          { r with store := ((l.predictFull user item).run r.store).2 }) := by
      rw [← hlearner]
      rfl
    have hlast : ((l.predictFull user item).run r.store).2 = t := by
      rw [Learner.predictFull, Store.run_bind_of_ok hscores, Store.run_lift]
    show ((predictAll user item >>= fun distribution => pure (.distribution distribution) :
      RecommenderM α (Answer α)).run r).2.store = t
    rw [Stateful.run_bind, hrun, hlast]
    rcases ((l.predictFull user item).run r.store).1 with e | distribution <;> rfl
  refine ⟨?_, fun other hother => ?_⟩
  · rw [hstore, Store.hasFamily, Table.contains, hread.users]
    rfl
  · rw [List.mem_singleton.1 hother, hstore, Store.hasFamily, Table.contains, hread.items]
    rfl

/-- Nothing is recommended if nothing is eligible. -/
theorem run_recommend_of_nil {r : Recommender α} {user : Id} {n : Int}
    {candidates : Option (List Id)} (h : r.eligible user candidates = []) :
    ((recommend user n candidates).run r).1 = .ok [] := by
  have hhead : head n ([] : List (Id × α)) = [] := by
    rw [head]
    split <;> exact List.take_nil
  rw [run_recommend, h]
  split
  · show Except.ok (head n (List.mergeSort [] _)) = _
    rw [List.mergeSort_nil, hhead]
  · rfl

/-- An item that is not in the history of a user can be recommended once both are
known. -/
theorem exists_recommendation {c : LearnerConfig α} (htyped : c.Typed) (hsized : c.Sized)
    {draws : Draws α} {r₀ r : Recommender α} (hr : c.recommender draws = .ok r₀)
    (h : Evolves r₀ r) {user item : Id} (hnew : (r.history user).contains item = false) :
    ∃ x, ((recommend user 1 (some [item])).run (after [.predictAll user item] r)).1 =
      .ok [(item, x)] := by
  obtain ⟨kind, hlearner, -, hwell, hreadable, -⟩ := ready_of_evolves htyped hsized hr h
  have hknows := knows_after_predictAll hlearner hwell hreadable (c.requireScope_learner kind)
    user item
  have hlater : Evolves r₀ (after [.predictAll user item] r) :=
    trans_of Evolves h (after_evolves _ r)
  have heligible : (after [.predictAll user item] r).eligible user (some [item]) = [item] := by
    have hrated : (after [.predictAll user item] r).rated = r.rated :=
      (Stateful.Moves.bind (predictAll_sameRated user item) fun _ _ _ _ => .pure _) r
    have hsame : (after [.predictAll user item] r).history user = r.history user := by
      rw [history, history, hrated]
    rw [eligible, Option.getD_some, hsame, List.filter_singleton, hnew,
      hknows.2 item (List.mem_singleton_self item)]
    rfl
  obtain ⟨scored, hscored, hrun⟩ := run_recommend_of_scores hknows.1
    fun other _ => exists_score htyped hsized hr hlater user other
  rw [heligible] at hscored
  obtain ⟨⟨_, x⟩, rest, ⟨rfl, -⟩, hnil, rfl⟩ := List.forall₂_cons_left_iff.1 hscored
  rw [List.forall₂_nil_left_iff.1 hnil] at hrun
  refine ⟨x, (hrun 1).trans ?_⟩
  rw [List.mergeSort_singleton]
  rfl

end Recommender

open Recommender

variable {α : Type} [Scalar α]

/-- A rating whose value is refused, in a recommender of a configuration, whatever has
happened to that since it was made.

The store, and everything else but the histories, stay as they are, and the histories
gain the item for the user.  So nothing changes if the item was in the history of the
user already.  If it was not, and the configuration is typed and sized, then a
recommendation tells: once the user and the item are known, the item is recommended
without the rejected rating and is not recommended with it.

All other differences are of this kind.  After any session, a call is answered as it
would have been without the rejected rating, except that the item is not among the
candidates if it asks what to recommend to the user. -/
theorem rejected_rating_is_remembered {c : LearnerConfig α} {draws : Draws α}
    {r₀ r : Recommender α} (hr : c.recommender draws = .ok r₀) (h : Evolves r₀ r)
    {y : Numeral α} {e : Fault α}
    (hrejected : r.learner.gradient.checkLabel y r.store.shape.classCount = .error e)
    (user item : Id) :
    let t := { r with rated := (remember user item r).rated }
    (addRating user item y).run r = (.error e, t) ∧
    (∀ user' item', (t.history user').contains item' =
      ((r.history user').contains item' || (user == user' && item == item'))) ∧
    ((r.history user).contains item = true → t = r) ∧
    ((r.history user).contains item = false → c.Typed → c.Sized → ∃ later x,
      ((recommend user 1 (some [item])).run (after later r)).1 = .ok [(item, x)] ∧
      ((recommend user 1 (some [item])).run (after later t)).1 = .ok []) ∧
    ∀ later call, ((answer call).run (after later t)).1 =
      ((answer (withholding user item (after later r) call)).run (after later r)).1 := by
  intro t
  obtain ⟨kind, shape, -, -, hlearner, -, -⟩ := LearnerConfig.recommender_eq_ok hr
  have hscope : r.learner.requireScope = .ok () := by
    rw [h.learner, hlearner]
    exact c.requireScope_learner kind
  have hwithholds : Withholds user item r t := withholds_remember user item r
  refine ⟨run_addRating_of_rejected hscope hrejected user item,
    contains_history_remember r user item, remember_of_contains, ?_, ?_⟩
  · intro hnew htyped hsized
    obtain ⟨x, hx⟩ := exists_recommendation htyped hsized hr h hnew
    refine ⟨[.predictAll user item], x, hx, ?_⟩
    have hlater := after_withholds hwithholds [.predictAll user item]
    refine run_recommend_of_nil ?_
    rw [eligible_withholds hlater, Option.getD_some, List.filter_singleton, BEq.rfl, BEq.rfl]
    rfl
  · intro later call
    exact (answer_withholds (after_withholds hwithholds later) call).1

/-- A configuration for binary responses, which are zero or one. -/
def binaryConfig : LearnerConfig ℚ :=
  (LearnerConfig.default.set .classes (.ofInt 2)).set .factorSize (.ofInt 0)

theorem typed_binaryConfig : binaryConfig.Typed := by
  refine ⟨⟨2, rfl⟩, fun f hf => ?_⟩
  simp only [Field.rates, List.mem_cons, List.not_mem_nil, or_false] at hf
  rcases hf with rfl | rfl | rfl | rfl | rfl | rfl | rfl <;> exact ⟨_, rfl⟩

theorem sized_binaryConfig : binaryConfig.Sized := ⟨⟨0, rfl, by decide⟩, fun hon => by cases hon⟩

/-- A rating of five is no binary response. -/
theorem rejected_rating_is_remembered_binary :
    ∃ r₀, binaryConfig.recommender (.ofSource fun _ => 0) = .ok r₀ ∧
      r₀.learner.gradient.checkLabel (.integer 5) r₀.store.shape.classCount =
        .error (.targetOutside (.integer 5)) ∧
      (r₀.history (.int 1)).contains (.int 7) = false ∧ ∃ later x,
        ((recommend (.int 1) 1 (some [.int 7])).run (after later r₀)).1 = .ok [(.int 7, x)] ∧
        ((recommend (.int 1) 1 (some [.int 7])).run
          (after later { r₀ with rated := (remember (.int 1) (.int 7) r₀).rated })).1 = .ok [] := by
  obtain ⟨r₀, hr, hrejected, hnew⟩ : ∃ r₀,
      binaryConfig.recommender (.ofSource fun _ => 0) = .ok r₀ ∧
        r₀.learner.gradient.checkLabel (.integer 5) r₀.store.shape.classCount =
          .error (.targetOutside (.integer 5)) ∧
        (r₀.history (.int 1)).contains (.int 7) = false := ⟨_, rfl, by decide +kernel, rfl⟩
  obtain ⟨-, -, -, hshows, -⟩ :=
    rejected_rating_is_remembered hr (refl_of Evolves r₀) hrejected (.int 1) (.int 7)
  exact ⟨r₀, hr, hrejected, hnew, hshows hnew typed_binaryConfig sized_binaryConfig⟩

/-- The histories are not as they were before a rejected rating, and neither is what is
recommended. -/
theorem rejected_rating_hides_item :
    ∃ r₀, binaryConfig.recommender (.ofSource fun _ => 0) = .ok r₀ ∧
      let r := after [.predictAll (.int 1) (.int 7)] r₀
      let run := (addRating (.int 1) (.int 7) (.integer 5)).run r
      run.1 = .error (.targetOutside (.integer 5)) ∧
      r.history (.int 1) = [] ∧ run.2.history (.int 1) = [.int 7] ∧
      ∃ x, ((recommend (.int 1) 1 (some [.int 7])).run r).1 = .ok [(.int 7, x)] ∧
        ((recommend (.int 1) 1 (some [.int 7])).run run.2).1 = .ok [] := by
  obtain ⟨r₀, hr, hnew, hrun, hbefore, hafter, heligible⟩ : ∃ r₀,
      binaryConfig.recommender (.ofSource fun _ => 0) = .ok r₀ ∧
        (r₀.history (.int 1)).contains (.int 7) = false ∧
        let r := after [.predictAll (.int 1) (.int 7)] r₀
        let run := (addRating (.int 1) (.int 7) (.integer 5)).run r
        run.1 = .error (.targetOutside (.integer 5)) ∧
        r.history (.int 1) = [] ∧ run.2.history (.int 1) = [.int 7] ∧
        run.2.eligible (.int 1) (some [.int 7]) = [] :=
    ⟨_, rfl, rfl, by decide +kernel, rfl, by decide +kernel, by decide +kernel⟩
  obtain ⟨x, hx⟩ := exists_recommendation typed_binaryConfig sized_binaryConfig hr
    (refl_of Evolves r₀) hnew
  exact ⟨r₀, hr, hrun, hbefore, hafter, x, hx, run_recommend_of_nil heligible⟩

end LatentFactors
