import LatentFactors.Frame
import LatentFactors.Learner

/-!
# Recommending

A `Recommender` is a learner with its store and the items that each user has
rated.  It trains on frames of ratings (`prepare`, `fit`, `partialFit`),
estimates ratings (`estimate`, `predictForUser`) and ranks the items that a
user has not rated (`recommend`).

An estimate is the score of one class, or the most probable class with ties
going to the later one.  Estimates for unknown users and items are missing.

A rating enters the history of its user before it is learned, and stays there
when learning fails.

Where a column of ratings has an undefined number in place of a name, every
use of it stands for a user or an item of its own (`tellApart`).
-/

namespace LatentFactors

/-- How a distribution becomes an estimate. -/
inductive Strategy where
  /-- The score of the target class, or the single predicted number. -/
  | targetScore
  /-- The most probable class. -/
  | mostProbable
  deriving DecidableEq, Repr

/-- The position and value of the largest element so far.  An undefined number
counts as the largest, and of equal elements the later one is taken. -/
def laterLargest {α : Type} [Scalar α] (best : Nat × α) (candidate : Nat × α) : Nat × α :=
  if Scalar.isUndefined candidate.2 then candidate
  else if Scalar.isUndefined best.2 then best
  else if Scalar.less candidate.2 best.2 then best
  else candidate

/-- The position of the largest element. -/
def lastLargest? {α : Type} [Scalar α] (xs : List α) : Option Nat :=
  match xs.zipIdx.map fun (x, i) => (i, x) with
  | [] => none
  | first :: rest => some (rest.foldl laterLargest first).1

/-- The score of a class; a negative class counts from the end. -/
def targetScore {α : Type} (distribution : List α) (target : Int) : Outcome α α := do
  Outcome.nth distribution (← place distribution.length target)

/-- The estimate from a distribution. -/
def Strategy.estimate {α : Type} [Scalar α] (strategy : Strategy) (distribution : List α)
    (target : Int) : Outcome α (Numeral α) :=
  match strategy with
  | targetScore => do return .real (← LatentFactors.targetScore distribution target)
  | mostProbable =>
    if distribution.length = 1 then .error .needsDistribution
    else
      match lastLargest? distribution with
      | some place => .ok (.integer place)
      | none => .error .nothingToChoose

/-- A learner with what it has learned and how it recommends. -/
structure Recommender (α : Type) where
  learner : Learner α
  epochs : Setting α
  target : Int
  strategy : Strategy
  store : Store α
  rated : Table Id (List Id)
  /-- The number of undefined names that have been stored. -/
  undefinedNames : Nat

/-- An operation on a recommender.  What was learned before it failed is
kept. -/
abbrev RecommenderM (α : Type) := ExceptT (Fault α) (StateM (Recommender α))

namespace Recommender

variable {α : Type}

/-- An outcome that does not depend on the recommender. -/
def lift {β : Type} (r : Outcome α β) : RecommenderM α β := ExceptT.mk (pure r)

/-- An operation on the store of the recommender. -/
def onStore {β : Type} (op : StoreM α β) : RecommenderM α β :=
  ExceptT.mk fun r =>
    let (outcome, store) := op.run r.store
    (outcome, { r with store })

/-- Runs an operation that counts only if it succeeds. -/
def evaluate {β : Type} (r : Recommender α) (op : RecommenderM α β) :
    Outcome α (β × Recommender α) :=
  let (outcome, after) := op.run r
  outcome.map (·, after)

/-- The recommender that has learned nothing.  The target is the last class
unless one is given. -/
def create (learner : Learner α) (epochs : Setting α) (target : Option Int)
    (strategy : Strategy) (store : Store α) : Recommender α :=
  ⟨learner, epochs, target.getD (store.shape.classCount - 1), strategy, store, .empty, 0⟩

/-- The description of a recommender. -/
def description [Scalar α] (r : Recommender α) : String :=
  "OnlineFactorizationRecommender(" ++ r.learner.gradient.hypothesis.name ++
    ", epochs=" ++ r.epochs.spelling ++ ")"

/-- The items that a user has rated. -/
def history (r : Recommender α) (user : Id) : List Id := (r.rated.find? user).getD []

/-- Enters an item into the history of a user, once. -/
def remember (user item : Id) (r : Recommender α) : Recommender α :=
  let items := r.history user
  let items := if items.contains item then items else items ++ [item]
  { r with rated := r.rated.insert user items }

/-- Gives an undefined name the next serial number. -/
def tellApart (id : Id) : RecommenderM α Id := do
  match id.name with
  | .undefined _ =>
    modify fun r => { r with undefinedNames := r.undefinedNames + 1 }
    return { id with name := .undefined (← get).undefinedNames }
  | _ => return id

variable [Scalar α]

/-- Learns from one rating. -/
def addRating (user item : Id) (y : Numeral α) : RecommenderM α Unit := do
  modify (remember user item)
  onStore ((← get).learner.train user item y)

/-- Creates the factors of all users and items of a frame and offers side
information. -/
def prepare (ratings : Frame α) (sides : List (SideKey × Vec α)) : RecommenderM α Unit := do
  let users ← lift (ratings.ids "user")
  (distinct users).forM fun user => do onStore (Store.touch .userFactors (← tellApart user))
  let items ← lift (ratings.ids "item")
  (distinct items).forM fun item => do onStore (Store.touch .itemFactors (← tellApart item))
  onStore (Store.offerAll sides)

/-- The rows of a frame of ratings. -/
def ratingRows (ratings : Frame α) : Outcome α (List ((Id × Id) × Numeral α)) := do
  let users ← ratings.ids "user"
  let items ← ratings.ids "item"
  return (users.zip items).zip (← ratings.numerals "rating")

/-- Learns from every row of a frame, in order. -/
def partialFit (ratings : Frame α) : RecommenderM α Unit := do
  (← lift (ratingRows ratings)).forM fun ((user, item), y) => do
    addRating (← tellApart user) (← tellApart item) y

/-- Prepares for a frame and passes over it once for each epoch. -/
def fit (ratings : Frame α) (sides : List (SideKey × Vec α)) : RecommenderM α Unit := do
  prepare ratings sides
  let epochs ← lift (← get).epochs.count
  (List.range epochs.toNat).forM fun _ => partialFit ratings

/-- The predicted distribution for a user and an item. -/
def predictAll (user item : Id) : RecommenderM α (List α) := do
  onStore ((← get).learner.predictFull user item)

/-- The estimate for a user and an item. -/
def estimate (user item : Id) : RecommenderM α (Numeral α) := do
  let r ← get
  lift (r.strategy.estimate (← predictAll user item) r.target)

/-- The estimates of a user for some items, missing where the user or the item
is unknown. -/
def predictForUser (user : Id) (items : List Id) : RecommenderM α (List (Option (Numeral α))) := do
  if (← get).store.hasFamily .userFactors user then
    items.mapM fun item => do
      if (← get).store.hasFamily .itemFactors item then return some (← estimate user item)
      else return none
  else return items.map fun _ => none

/-- Whether the first score is listed before or beside the second: larger ones
first and undefined ones last. -/
def ranksBefore (x y : α) : Bool :=
  Scalar.isUndefined y || (!Scalar.isUndefined x && Scalar.atMost y x)

/-- The first `n` elements, or all but the last `-n` of them. -/
def head {β : Type} (n : Int) (xs : List β) : List β :=
  if n < 0 then xs.take (xs.length - n.natAbs) else xs.take n.toNat

/-- The items to score for a user: known ones that the user has not rated. -/
def eligible (r : Recommender α) (user : Id) (candidates : Option (List Id)) : List Id :=
  (candidates.getD (r.store.owners .itemFactors)).filter fun item =>
    !(r.history user).contains item && r.store.hasFamily .itemFactors item

/-- The best `n` items for a user with their scores on the target class, in
descending order; equal scores keep the order of the candidates. -/
def recommend (user : Id) (n : Int) (candidates : Option (List Id)) :
    RecommenderM α (List (Id × α)) := do
  let r ← get
  if r.store.hasFamily .userFactors user then
    let scored ← (r.eligible user candidates).mapM fun item => do
      return (item, ← lift (targetScore (← predictAll user item) r.target))
    return head n (scored.mergeSort fun a b => ranksBefore a.2 b.2)
  else return []

end Recommender

end LatentFactors
