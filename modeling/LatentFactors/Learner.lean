import LatentFactors.Gradient.Update
import LatentFactors.Store

/-!
# Learning from single ratings

A `Learner` scores a user and an item and takes one gradient step for every
observed rating.  A step has three parts:

* `Learner.gather` reads what the step needs, creating what is missing;
* `Learner.improve` computes all new parameters from the old ones;
* `Learner.commit` writes them.

The observed value is checked before anything is read, and nothing is written
until everything has been computed.  A bad value therefore leaves the store as
it was, and a failed step changes no family that existed before.
-/

namespace LatentFactors

/-- What a learner learns. -/
inductive Scope (α : Type) where
  /-- Nothing: neither a score nor a step is defined. -/
  | nothing
  /-- User and item factors. -/
  | factors
  /-- User and item factors, and parameters of side information with a penalty
  for each owner. -/
  | sideInfo (user item dynamic : Setting α)

/-- A learning rule with its penalties. -/
structure Learner (α : Type) where
  gradient : Gradient α
  biasPenalty : Setting α
  factorPenalty : Setting α
  cutPenalty : Setting α
  clampCuts : Setting α
  scope : Scope α

/-- A family of parameters of side information, the side information that it
applies to and its penalty. -/
structure SideTerm (α : Type) where
  key : FamilyKey
  feature : SideKey
  penalty : Setting α

/-- A side term with the vectors that were read for it. -/
structure GatheredTerm (α : Type) where
  term : SideTerm α
  parameters : Family α
  feature : Vec α

/-- What is read from a store for a user and an item. -/
structure Gathered (α : Type) where
  cuts : List α
  users : Family α
  items : Family α
  terms : List (GatheredTerm α)

/-- The new parameters of a user and an item. -/
structure Improved (α : Type) where
  cuts : List α
  users : Family α
  items : Family α
  terms : List (FamilyKey × Family α)

namespace Learner

variable {α : Type} [Scalar α]

/-- The hypothesis of a learner is that of its gradient. -/
def hypothesis (l : Learner α) : Hypothesis := l.gradient.hypothesis

/-- The side information terms of a user and an item. -/
def sideTerms (l : Learner α) (user item : Id) : List (SideTerm α) :=
  match l.scope with
  | .sideInfo forUser forItem forDynamic =>
    [⟨⟨.userOnItemSide, user⟩, .item item, forItem⟩,
      ⟨⟨.userOnDynamicSide, user⟩, .pair user item, forDynamic⟩,
      ⟨⟨.itemOnUserSide, item⟩, .user user, forUser⟩,
      ⟨⟨.itemOnDynamicSide, item⟩, .pair user item, forDynamic⟩]
  | .nothing | .factors => []

/-- The penalties of the factors, with the two constants as bias entries. -/
def factorPenalties (l : Learner α) : Penalties α :=
  ⟨l.factorPenalty, l.biasPenalty, [userIntercept, itemIntercept]⟩

/-- Refuses a learner that learns nothing. -/
def requireScope (l : Learner α) : Outcome α Unit :=
  match l.scope with
  | .nothing => .error .notImplemented
  | .factors | .sideInfo _ _ _ => .ok ()

/-- Reads the side information that the terms of a user and an item apply to,
each vector once. -/
def features (l : Learner α) (user item : Id) (s : Store α) :
    Outcome α (List (SideTerm α × Vec α)) :=
  match l.scope with
  | .nothing | .factors => .ok []
  | .sideInfo _ _ _ => do
    let vectors ← s.sidesOf user item
    return (l.sideTerms user item).map fun term => (term, vectors term.feature.owner)

/-- Reads what a user and an item need, all side information before the
parameters that apply to it. -/
def gather (l : Learner α) (user item : Id) : StoreM α (Gathered α) := do
  let users ← Store.family .userFactors user
  let items ← Store.family .itemFactors item
  let s ← get
  let features ← Store.lift (l.features user item s)
  let terms ← features.mapM fun (term, feature) => do
    return ⟨term, ← Store.family term.key.kind term.key.owner, feature⟩
  return ⟨s.cuts, users, items, terms⟩

/-- The scores of what was gathered. -/
def scores (l : Learner α) (g : Gathered α) : Outcome α (List α) :=
  l.hypothesis.linearCombination g.cuts g.users g.items
    (g.terms.map fun t => (t.parameters, t.feature))

/-- The scores of a user and an item. -/
def linearCombination (l : Learner α) (user item : Id) : StoreM α (List α) := do
  Store.lift l.requireScope
  Store.lift (l.scores (← l.gather user item))

/-- The prediction for a user and an item. -/
def predict (l : Learner α) (user item : Id) : StoreM α (List α) := do
  Store.lift (l.hypothesis.predict (← l.linearCombination user item))

/-- The predicted distribution for a user and an item. -/
def predictFull (l : Learner α) (user item : Id) : StoreM α (List α) := do
  Store.lift (l.hypothesis.predictFull (← l.linearCombination user item))

/-- Computes the new parameters.  Users and items are each other's features,
and the constants keep their value. -/
def improve (l : Learner α) (y : Numeral α) (g : Gathered α) : Outcome α (Improved α) := do
  let scores ← l.scores g
  let prediction ← l.hypothesis.predict scores
  let cuts ← l.gradient.updateCuts y g.cuts scores l.cutPenalty l.clampCuts.isOn
  let users ← l.gradient.updateFamily g.users (.perClass g.items) y prediction
    l.factorPenalties (some userIntercept)
  let items ← l.gradient.updateFamily g.items (.perClass g.users) y prediction
    l.factorPenalties (some itemIntercept)
  let terms ← g.terms.mapM fun t => do
    let updated ← l.gradient.updateFamily t.parameters (.shared t.feature) y prediction
      ⟨t.term.penalty, .ofReal 0, []⟩ none
    return (t.term.key, updated)
  return ⟨cuts, users, items, terms⟩

/-- Writes the new parameters of a user and an item. -/
def commit (user item : Id) (new : Improved α) : StoreM α Unit := do
  Store.setCuts new.cuts
  Store.setFamily .userFactors user new.users
  Store.setFamily .itemFactors item new.items
  new.terms.forM fun (key, family) => Store.setFamily key.kind key.owner family

/-- Learns from one rating. -/
def train (l : Learner α) (user item : Id) (y : Numeral α) : StoreM α Unit := do
  Store.lift l.requireScope
  Store.lift (l.gradient.checkLabel y (← get).shape.classCount)
  let old ← l.gather user item
  commit user item (← Store.lift (l.improve y old))

end Learner

end LatentFactors
