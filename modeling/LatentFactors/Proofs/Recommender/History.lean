import LatentFactors.Proofs.Recommender.Calls
import LatentFactors.Proofs.Table

/-!
# The history of ratings

A recommender enters every rating that it is given into the history of the user,
also if it is then not learned.  To compare the histories with what was really
given, sessions are run with a log of the pairs that are passed to
`Recommender.addRating`.  Without its log such a session is the session itself
(`Recommender.recommender_logged`), and what the log lists are the histories
(`Recommender.tracks_logged`).
-/

namespace LatentFactors.Recommender

variable {α β : Type}

/-- A recommender and the pairs of users and items that were passed to
`addRating`, in order. -/
structure Logged (α : Type) where
  recommender : Recommender α
  passed : List (Id × Id)

/-- An operation on a recommender with a log. -/
abbrev LoggedM (α : Type) := Stateful (Logged α) α

/-- An operation on the recommender that is not logged. -/
def quietly (m : RecommenderM α β) : LoggedM α β :=
  ExceptT.mk fun s =>
    let (outcome, recommender) := m.run s.recommender
    (outcome, { s with recommender })

variable [Scalar α]

/-- `addRating`, logged. -/
def loggedRating (user item : Id) (y : Numeral α) : LoggedM α Unit := do
  modify fun s => { s with passed := s.passed ++ [(user, item)] }
  quietly (addRating user item y)

/-- `partialFit` with its ratings logged. -/
def loggedPartialFit (ratings : Frame α) : LoggedM α Unit := do
  (← quietly (lift (ratingRows ratings))).forM fun ((user, item), y) => do
    loggedRating (← quietly (tellApart user)) (← quietly (tellApart item)) y

/-- `fit` with its ratings logged. -/
def loggedFit (ratings : Frame α) (sides : List (SideKey × Vec α)) : LoggedM α Unit := do
  quietly (prepare ratings sides)
  let r ← quietly get
  let epochs ← quietly (lift r.epochs.count)
  (List.range epochs.toNat).forM fun _ => loggedPartialFit ratings

/-- Answers a call and logs its ratings. -/
def loggedAnswer : Call α → LoggedM α (Answer α)
  | .addRating user item y => do loggedRating user item y; return .nothing
  | .partialFit ratings => do loggedPartialFit ratings; return .nothing
  | .fit ratings sides => do loggedFit ratings sides; return .nothing
  | call => quietly (answer call)

/-- The recommender after a session, with its log. -/
def logged (calls : List (Call α)) (r : Recommender α) : Logged α :=
  calls.foldl (fun s call => ((loggedAnswer call).run s).2) ⟨r, []⟩

/-! ## Without the log -/

omit [Scalar α] in
theorem quietly_forgets (m : RecommenderM α β) :
    Stateful.Couples (fun s r => s.recommender = r) Eq (quietly m) m := by
  rintro s _ rfl
  exact ⟨.of_eq rfl, rfl⟩

theorem loggedRating_forgets (user item : Id) (y : Numeral α) :
    Stateful.Couples (fun s r => s.recommender = r) Eq (loggedRating user item y)
      (addRating user item y) := by
  rintro s _ rfl
  exact quietly_forgets (addRating user item y)
    { s with passed := s.passed ++ [(user, item)] } _ rfl

theorem loggedPartialFit_forgets (ratings : Frame α) :
    Stateful.Couples (fun s r => s.recommender = r) Eq (loggedPartialFit ratings)
      (partialFit ratings) := by
  refine .bind (quietly_forgets _) ?_
  rintro rows _ rfl
  refine .forM fun row _ => .bind (quietly_forgets _) ?_
  rintro user _ rfl
  refine .bind (quietly_forgets _) ?_
  rintro item _ rfl
  exact loggedRating_forgets user item row.2

theorem loggedFit_forgets (ratings : Frame α) (sides : List (SideKey × Vec α)) :
    Stateful.Couples (fun s r => s.recommender = r) Eq (loggedFit ratings sides)
      (fit ratings sides) := by
  refine .bind (quietly_forgets _) fun _ _ _ => .bind (quietly_forgets _) ?_
  rintro r _ rfl
  refine .bind (quietly_forgets _) ?_
  rintro epochs _ rfl
  exact .forM fun _ _ => loggedPartialFit_forgets ratings

/-- A logged call is answered as the call itself. -/
theorem loggedAnswer_forgets (call : Call α) :
    Stateful.Couples (fun s r => s.recommender = r) Eq (loggedAnswer call) (answer call) := by
  cases call with
  | addRating user item y =>
    exact .bind (loggedRating_forgets user item y) fun _ _ _ => .pure rfl
  | partialFit ratings =>
    exact .bind (loggedPartialFit_forgets ratings) fun _ _ _ => .pure rfl
  | fit ratings sides => exact .bind (loggedFit_forgets ratings sides) fun _ _ _ => .pure rfl
  | prepare _ _ | predictAll _ _ | estimate _ _ | ask _ => exact quietly_forgets _

/-- Without its log a logged session is the session itself. -/
theorem recommender_logged (calls : List (Call α)) (r : Recommender α) :
    (logged calls r).recommender = after calls r := by
  have hfold : ∀ (s : Logged α) (r : Recommender α), s.recommender = r →
      (calls.foldl (fun s call => ((loggedAnswer call).run s).2) s).recommender =
        after calls r := by
    induction calls with
    | nil => exact fun s r h => h
    | cons call later ih => exact fun s r h => ih _ _ (loggedAnswer_forgets call s r h).2
  exact hfold ⟨r, []⟩ r rfl

/-! ## What the log lists -/

/-- The histories are what the log lists. -/
def Tracks (s : Logged α) : Prop :=
  ∀ user item, (s.recommender.history user).contains item =
    s.passed.any fun pair => pair.1 == user && pair.2 == item

/-- The histories stay what the log lists. -/
def KeepsTrack (s t : Logged α) : Prop := Tracks s → Tracks t

omit [Scalar α] in
instance : IsPreorder (Logged α) KeepsTrack where
  refl _ h := h
  trans _ _ _ h h' hs := h' (h hs)

omit [Scalar α] in
theorem contains_history_remember (r : Recommender α) (user item user' item' : Id) :
    ((remember user item r).history user').contains item' =
      ((r.history user').contains item' || (user == user' && item == item')) := by
  have hitems : ∀ items : List Id, (if items.contains item then items else items ++ [item]).contains
      item' = (items.contains item' || item == item') := by
    intro items
    split
    · next hmem =>
      -- An item that is there already in another spelling is not entered again.
      by_cases hsame : (item == item') = true
      · rw [← List.contains_congr hsame, hmem]
        simp
      · simp [hsame]
    · rw [List.contains_append]
      simp [BEq.comm]
  rw [history, remember, Table.find?_insert]
  by_cases huser : (user == user') = true
  · have hhistory : r.history user = r.history user' := by
      rw [history, history, Table.find?_congr _ huser]
    rw [if_pos huser, Option.getD_some, hitems, huser, hhistory, Bool.true_and]
  · rw [if_neg huser, Bool.eq_false_iff.2 huser, Bool.false_and, Bool.or_false]
    rfl

/-- The histories stay as they are. -/
def SameRated (r t : Recommender α) : Prop := t.rated = r.rated

omit [Scalar α] in
instance : IsPreorder (Recommender α) SameRated where
  refl _ := rfl
  trans _ _ _ h h' := h'.trans h

omit [Scalar α] in
theorem quietly_keepsTrack {m : RecommenderM α β} (h : Stateful.Moves SameRated m) :
    Stateful.Moves KeepsTrack (quietly m) := by
  intro s hs user item
  have hhistory : ((quietly m).run s).2.recommender.history user = s.recommender.history user :=
    congrArg (fun rated : Table Id (List Id) => (rated.find? user).getD []) (h s.recommender)
  rw [hhistory]
  exact hs user item

omit [Scalar α] in
theorem tellApart_sameRated (id : Id) :
    Stateful.Moves SameRated (tellApart id : RecommenderM α Id) := by
  unfold tellApart
  split
  · exact .bind (fun r => rfl) fun _ _ _ _ => .bind .get fun _ _ _ _ => .pure _
  · exact .pure id

omit [Scalar α] in
theorem onStore_sameRated (op : StoreM α β) : Stateful.Moves SameRated (onStore op) :=
  fun _ => rfl

theorem prepare_sameRated (ratings : Frame α) (sides : List (SideKey × Vec α)) :
    Stateful.Moves SameRated (prepare ratings sides) :=
  moves_prepare tellApart_sameRated (fun _ => onStore_sameRated _) (fun _ => onStore_sameRated _)
    ratings sides (onStore_sameRated _)

theorem predictAll_sameRated (user item : Id) :
    Stateful.Moves (SameRated (α := α)) (predictAll user item) :=
  .bind .get fun _ _ _ _ => onStore_sameRated _

theorem loggedRating_keepsTrack (user item : Id) (y : Numeral α) :
    Stateful.Moves KeepsTrack (loggedRating user item y) := by
  intro s hs user' item'
  show ((remember user item s.recommender).history user').contains item' =
    (s.passed ++ [(user, item)]).any fun pair => pair.1 == user' && pair.2 == item'
  rw [contains_history_remember, hs user' item', List.any_append]
  simp

theorem loggedPartialFit_keepsTrack (ratings : Frame α) :
    Stateful.Moves KeepsTrack (loggedPartialFit ratings) := by
  refine .bind (quietly_keepsTrack (.lift _)) fun _ _ _ _ => .forM fun row _ => ?_
  refine .bind (quietly_keepsTrack (tellApart_sameRated row.1.1)) fun _ user _ _ => ?_
  refine .bind (quietly_keepsTrack (tellApart_sameRated row.1.2)) fun _ item _ _ => ?_
  exact loggedRating_keepsTrack user item row.2

theorem loggedAnswer_keepsTrack (call : Call α) :
    Stateful.Moves KeepsTrack (loggedAnswer call) := by
  cases call with
  | addRating user item y =>
    exact .bind (loggedRating_keepsTrack user item y) fun _ _ _ _ => .pure _
  | partialFit ratings =>
    exact .bind (loggedPartialFit_keepsTrack ratings) fun _ _ _ _ => .pure _
  | fit ratings sides =>
    refine .bind ?_ fun _ _ _ _ => .pure _
    refine .bind (quietly_keepsTrack (prepare_sameRated ratings sides)) fun _ _ _ _ => ?_
    refine .bind (quietly_keepsTrack .get) fun _ _ _ _ => ?_
    refine .bind (quietly_keepsTrack (.lift _)) fun _ _ _ _ => ?_
    exact .forM fun _ _ => loggedPartialFit_keepsTrack ratings
  | prepare ratings sides =>
    exact quietly_keepsTrack (.bind (prepare_sameRated ratings sides) fun _ _ _ _ => .pure _)
  | predictAll user item =>
    exact quietly_keepsTrack (.bind (predictAll_sameRated user item) fun _ _ _ _ => .pure _)
  | estimate user item =>
    refine quietly_keepsTrack (.bind ?_ fun _ _ _ _ => .pure _)
    exact moves_estimate (predictAll_sameRated user item)
  | ask inquiry =>
    exact quietly_keepsTrack (moves_answerInquiry predictAll_sameRated inquiry)

/-- The histories after a session from empty ones are what was passed in it. -/
theorem tracks_logged {r : Recommender α} (h : r.rated = .empty) (calls : List (Call α)) :
    Tracks (logged calls r) := by
  have hfold : ∀ s : Logged α, Tracks s →
      Tracks (calls.foldl (fun s call => ((loggedAnswer call).run s).2) s) := by
    induction calls with
    | nil => exact fun s hs => hs
    | cons call later ih => exact fun s hs => ih _ (loggedAnswer_keepsTrack call s hs)
  refine hfold ⟨r, []⟩ fun user item => ?_
  rw [history, h]
  rfl

end LatentFactors.Recommender
