import LatentFactors.Proofs.Stateful
import LatentFactors.Recommender

/-!
# Sessions of a recommender

A session is any list of calls to a recommender, in any order.  A call that
fails is a part of the session like any other, and what was learned before it
failed is kept.

The calls that only ask about a user, `Recommender.Inquiry`, are set apart from
those that teach the recommender something.

Calls are made of five steps.  What is kept along these is kept by every call
(`Recommender.moves_answer`) and by every session (`Recommender.moves_after`).

Two recommenders can be run side by side in the same way.  If related ones
estimate and know alike, and the five steps take them to related ones
(`Recommender.Parallel`), then every call does that asks for no ranking.
-/

namespace LatentFactors.Recommender

variable {α : Type}

/-- A question about a user. -/
inductive Inquiry where
  | predictForUser (user : Id) (items : List Id)
  | recommend (user : Id) (n : Int) (candidates : Option (List Id))

/-- A call to a recommender. -/
inductive Call (α : Type) where
  | prepare (ratings : Frame α) (sides : List (SideKey × Vec α))
  | fit (ratings : Frame α) (sides : List (SideKey × Vec α))
  | partialFit (ratings : Frame α)
  | addRating (user item : Id) (y : Numeral α)
  | predictAll (user item : Id)
  | estimate (user item : Id)
  | ask (inquiry : Inquiry)

/-- What a call gives if it succeeds. -/
inductive Answer (α : Type) where
  | nothing
  | distribution (probabilities : List α)
  | estimate (y : Numeral α)
  | estimates (ys : List (Option (Numeral α)))
  | ranking (items : List (Id × α))

variable [Scalar α]

/-- Answers a question about a user. -/
def answerInquiry : Inquiry → RecommenderM α (Answer α)
  | .predictForUser user items => do return .estimates (← predictForUser user items)
  | .recommend user n candidates => do return .ranking (← recommend user n candidates)

/-- Answers a call. -/
def answer : Call α → RecommenderM α (Answer α)
  | .prepare ratings sides => do prepare ratings sides; return .nothing
  | .fit ratings sides => do fit ratings sides; return .nothing
  | .partialFit ratings => do partialFit ratings; return .nothing
  | .addRating user item y => do addRating user item y; return .nothing
  | .predictAll user item => do return .distribution (← predictAll user item)
  | .estimate user item => do return .estimate (← estimate user item)
  | .ask inquiry => answerInquiry inquiry

/-- The answers to a session, and the recommender after it. -/
def session : List (Call α) → Recommender α → List (Outcome α (Answer α)) × Recommender α
  | [], r => ([], r)
  | call :: later, r =>
    let (outcome, t) := (answer call).run r
    let (outcomes, u) := session later t
    (outcome :: outcomes, u)

/-- The recommender after a session. -/
def after (calls : List (Call α)) (r : Recommender α) : Recommender α := (session calls r).2

theorem after_append (before later : List (Call α)) (r : Recommender α) :
    after (before ++ later) r = after later (after before r) := by
  induction before generalizing r with
  | nil => rfl
  | cons call before ih => exact ih _

/-! ## Relations along calls -/

section

variable {R : Recommender α → Recommender α → Prop} [IsPreorder (Recommender α) R]

theorem moves_touchAll (htell : ∀ id, Stateful.Moves R (tellApart id : RecommenderM α Id))
    {kind : FamilyKind} (htouch : ∀ id, Stateful.Moves R (onStore (Store.touch (α := α) kind id)))
    (ids : List Id) : Stateful.Moves R
      (ids.forM fun id => do onStore (Store.touch (α := α) kind (← tellApart id))) :=
  .forM fun id _ => .bind (htell id) fun _ told _ _ => htouch told

theorem moves_prepare (htell : ∀ id, Stateful.Moves R (tellApart id : RecommenderM α Id))
    (huser : ∀ id, Stateful.Moves R (onStore (Store.touch (α := α) .userFactors id)))
    (hitem : ∀ id, Stateful.Moves R (onStore (Store.touch (α := α) .itemFactors id)))
    (ratings : Frame α) (sides : List (SideKey × Vec α))
    (hoffer : Stateful.Moves R (onStore (Store.offerAll sides))) :
    Stateful.Moves R (prepare ratings sides) := by
  refine .bind (.lift _) fun _ _ _ _ => .bind (moves_touchAll htell huser _) fun _ _ _ _ => ?_
  refine .bind (.lift _) fun _ _ _ _ => .bind (moves_touchAll htell hitem _) fun _ _ _ _ => ?_
  exact hoffer

theorem moves_partialFit (htell : ∀ id, Stateful.Moves R (tellApart id : RecommenderM α Id))
    (hrating : ∀ user item y, Stateful.Moves R (addRating (α := α) user item y))
    (ratings : Frame α) : Stateful.Moves R (partialFit ratings) := by
  refine .bind (.lift _) fun _ _ _ _ => .forM fun row _ => ?_
  refine .bind (htell row.1.1) fun _ user _ _ => .bind (htell row.1.2) fun _ item _ _ => ?_
  exact hrating user item row.2

theorem moves_estimate {user item : Id}
    (hpredict : Stateful.Moves R (predictAll (α := α) user item)) :
    Stateful.Moves R (estimate (α := α) user item) :=
  .bind .get fun _ _ _ _ => .bind hpredict fun _ _ _ _ => .lift _

theorem moves_answerInquiry
    (hpredict : ∀ user item, Stateful.Moves R (predictAll (α := α) user item))
    (inquiry : Inquiry) : Stateful.Moves R (answerInquiry (α := α) inquiry) := by
  cases inquiry with
  | predictForUser user items =>
    refine .bind (.bind .get fun _ _ _ _ => ?_) fun _ _ _ _ => .pure _
    split
    · refine .mapM fun item _ => .bind .get fun _ _ _ _ => ?_
      split
      · exact .bind (moves_estimate (hpredict user item)) fun _ _ _ _ => .pure _
      · exact .pure _
    · exact .pure _
  | recommend user n candidates =>
    refine .bind (.bind .get fun _ _ _ _ => ?_) fun _ _ _ _ => .pure _
    split
    · refine .bind (.mapM fun item _ => ?_) fun _ _ _ _ => .pure _
      refine .bind (hpredict user item) fun _ _ _ _ => ?_
      exact .bind (.lift _) fun _ _ _ _ => .pure _
    · exact .pure _

/-- Every call goes along a relation if naming, creating factors, giving side
information, learning from one rating and predicting do. -/
theorem moves_answer (htell : ∀ id, Stateful.Moves R (tellApart id : RecommenderM α Id))
    (huser : ∀ id, Stateful.Moves R (onStore (Store.touch (α := α) .userFactors id)))
    (hitem : ∀ id, Stateful.Moves R (onStore (Store.touch (α := α) .itemFactors id)))
    (hoffer : ∀ sides, Stateful.Moves R (onStore (Store.offerAll (α := α) sides)))
    (hrating : ∀ user item y, Stateful.Moves R (addRating (α := α) user item y))
    (hpredict : ∀ user item, Stateful.Moves R (predictAll (α := α) user item))
    (call : Call α) : Stateful.Moves R (answer call) := by
  have hprepare (ratings : Frame α) (sides : List (SideKey × Vec α)) :
      Stateful.Moves R (prepare ratings sides) :=
    moves_prepare htell huser hitem ratings sides (hoffer sides)
  cases call with
  | prepare ratings sides => exact .bind (hprepare ratings sides) fun _ _ _ _ => .pure _
  | fit ratings sides =>
    refine .bind (.bind (hprepare ratings sides) fun _ _ _ _ => ?_) fun _ _ _ _ => .pure _
    refine .bind .get fun _ _ _ _ => .bind (.lift _) fun _ _ _ _ => ?_
    exact .forM fun _ _ => moves_partialFit htell hrating ratings
  | partialFit ratings =>
    exact .bind (moves_partialFit htell hrating ratings) fun _ _ _ _ => .pure _
  | addRating user item y => exact .bind (hrating user item y) fun _ _ _ _ => .pure _
  | predictAll user item => exact .bind (hpredict user item) fun _ _ _ _ => .pure _
  | estimate user item =>
    exact .bind (moves_estimate (hpredict user item)) fun _ _ _ _ => .pure _
  | ask inquiry => exact moves_answerInquiry hpredict inquiry

/-- A session goes along a relation if every call does. -/
theorem moves_after (h : ∀ call : Call α, Stateful.Moves R (answer call)) (calls : List (Call α))
    (r : Recommender α) : R r (after calls r) := by
  induction calls generalizing r with
  | nil => exact refl_of R r
  | cons call later ih => exact trans_of R (h call r) (ih _)

end

/-! ## Two recommenders side by side -/

/-- Scores some items for a user and lists the best ones. -/
def rank (user : Id) (n : Int) (items : List Id) (target : Int) :
    RecommenderM α (List (Id × α)) := do
  let scored ← items.mapM fun item => do
    return (item, ← lift (targetScore (← predictAll user item) target))
  return head n (scored.mergeSort fun a b => ranksBefore a.2 b.2)

/-- A recommendation for a known user ranks the items that are eligible. -/
theorem run_recommend (user : Id) (n : Int) (candidates : Option (List Id)) (r : Recommender α) :
    (recommend user n candidates).run r =
      if r.store.hasFamily .userFactors user then
        (rank user n (r.eligible user candidates) r.target).run r
      else (.ok [], r) := by
  rw [recommend, Stateful.run_bind_of_ok (Stateful.run_get r)]
  split <;> rfl

/-- Related recommenders estimate alike and know the same users and items, and
each step of a call takes them to related ones with the same result. -/
structure Parallel (R : Recommender α → Recommender α → Prop) : Prop where
  strategy_eq {r t : Recommender α} (h : R r t) : t.strategy = r.strategy
  target_eq {r t : Recommender α} (h : R r t) : t.target = r.target
  knows_user {r t : Recommender α} (h : R r t) (user : Id) :
    t.store.hasFamily .userFactors user = r.store.hasFamily .userFactors user
  knows_item {r t : Recommender α} (h : R r t) (item : Id) :
    t.store.hasFamily .itemFactors item = r.store.hasFamily .itemFactors item
  tellApart (id : Id) : Stateful.Couples R Eq (tellApart id : RecommenderM α Id) (tellApart id)
  touch (kind : FamilyKind) (id : Id) :
    Stateful.Couples R Eq (onStore (Store.touch (α := α) kind id)) (onStore (Store.touch kind id))
  offer (sides : List (SideKey × Vec α)) :
    Stateful.Couples R Eq (onStore (Store.offerAll sides)) (onStore (Store.offerAll sides))
  rating (user item : Id) (y : Numeral α) :
    Stateful.Couples R Eq (addRating user item y) (addRating user item y)
  predict (user item : Id) :
    Stateful.Couples R Eq (predictAll (α := α) user item) (predictAll user item)

theorem answer_recommend (user : Id) (n : Int) (candidates : Option (List Id))
    (r : Recommender α) :
    ((answer (.ask (.recommend user n candidates))).run r).1 =
      ((recommend user n candidates).run r).1.map .ranking := by
  show ((recommend user n candidates >>= fun items => pure (.ranking items) :
    RecommenderM α (Answer α)).run r).1 = _
  rw [Stateful.run_bind]
  rcases (recommend user n candidates).run r with ⟨e | items, t⟩ <;> rfl

namespace Parallel

variable {R : Recommender α → Recommender α → Prop}

omit [Scalar α] in
theorem lift {β : Type} (x : Outcome α β) : Stateful.Couples R Eq (lift x) (lift x) :=
  (Stateful.Couples.lift x).imp fun _ _ h => h.1.symm

variable (h : Parallel R)
include h

theorem prepare (ratings : Frame α) (sides : List (SideKey × Vec α)) :
    Stateful.Couples R Eq (prepare ratings sides) (prepare ratings sides) := by
  have htouch (kind : FamilyKind) (ids : List Id) : Stateful.Couples R Eq
      (ids.forM fun id => do onStore (Store.touch (α := α) kind (← Recommender.tellApart id)))
      (ids.forM fun id => do onStore (Store.touch kind (← Recommender.tellApart id))) := by
    refine .forM fun id _ => .bind (h.tellApart id) ?_
    rintro told _ rfl
    exact h.touch kind told
  refine .bind (lift _) ?_
  rintro users _ rfl
  refine .bind (htouch .userFactors _) fun _ _ _ => .bind (lift _) ?_
  rintro items _ rfl
  exact .bind (htouch .itemFactors _) fun _ _ _ => h.offer sides

theorem partialFit (ratings : Frame α) :
    Stateful.Couples R Eq (partialFit ratings) (partialFit ratings) := by
  refine .bind (lift _) ?_
  rintro rows _ rfl
  refine .forM fun row _ => .bind (h.tellApart row.1.1) ?_
  rintro user _ rfl
  refine .bind (h.tellApart row.1.2) ?_
  rintro item _ rfl
  exact h.rating user item row.2

/-- With as many epochs, related recommenders fit in the same way. -/
theorem fit (hepochs : ∀ r t, R r t → t.epochs = r.epochs) (ratings : Frame α)
    (sides : List (SideKey × Vec α)) :
    Stateful.Couples R Eq (fit ratings sides) (fit ratings sides) := by
  refine .bind (h.prepare ratings sides) fun _ _ _ => .bind .get fun r t hrt => ?_
  rw [hepochs r t hrt]
  refine .bind (lift _) ?_
  rintro epochs _ rfl
  exact .forM fun _ _ => h.partialFit ratings

theorem estimate (user item : Id) :
    Stateful.Couples R Eq (estimate (α := α) user item) (estimate user item) := by
  refine .bind .get fun r t hrt => ?_
  rw [h.strategy_eq hrt, h.target_eq hrt]
  refine .bind (h.predict user item) ?_
  rintro distribution _ rfl
  exact lift _

theorem predictForUser (user : Id) (items : List Id) :
    Stateful.Couples R Eq (predictForUser (α := α) user items) (predictForUser user items) := by
  refine .bind .get fun r t hrt => ?_
  rw [h.knows_user hrt user]
  split
  · refine .mapM fun item _ => .bind .get fun r t hrt => ?_
    rw [h.knows_item hrt item]
    split
    · refine .bind (h.estimate user item) ?_
      rintro y _ rfl
      exact .pure rfl
    · exact .pure rfl
  · exact .pure rfl

/-- Related recommenders rank the same items alike. -/
theorem rank (user : Id) (n : Int) (items : List Id) (target : Int) :
    Stateful.Couples R Eq (rank (α := α) user n items target) (rank user n items target) := by
  refine .bind (.mapM fun item _ => .bind (h.predict user item) ?_) ?_
  · rintro distribution _ rfl
    refine .bind (lift _) ?_
    rintro score _ rfl
    exact .pure rfl
  · rintro scored _ rfl
    exact .pure rfl

/-- Every call that asks for no ranking is answered alike. -/
theorem answer (hepochs : ∀ r t, R r t → t.epochs = r.epochs) {call : Call α}
    (hcall : ∀ user n candidates, call ≠ .ask (.recommend user n candidates)) :
    Stateful.Couples R Eq (answer call) (answer call) := by
  cases call with
  | prepare ratings sides => exact .bind (h.prepare ratings sides) fun _ _ _ => .pure rfl
  | fit ratings sides => exact .bind (h.fit hepochs ratings sides) fun _ _ _ => .pure rfl
  | partialFit ratings => exact .bind (h.partialFit ratings) fun _ _ _ => .pure rfl
  | addRating user item y => exact .bind (h.rating user item y) fun _ _ _ => .pure rfl
  | predictAll user item =>
    refine .bind (h.predict user item) ?_
    rintro distribution _ rfl
    exact .pure rfl
  | estimate user item =>
    refine .bind (h.estimate user item) ?_
    rintro y _ rfl
    exact .pure rfl
  | ask inquiry =>
    cases inquiry with
    | predictForUser user items =>
      refine .bind (h.predictForUser user items) ?_
      rintro estimates _ rfl
      exact .pure rfl
    | recommend user n candidates => exact absurd rfl (hcall user n candidates)

end Parallel

end LatentFactors.Recommender
