import LatentFactors.Proofs.Learner.Gather
import LatentFactors.Proofs.Store.Reading

/-!
# What is gathered, read off the store

Where the factors of a user and an item are there, nothing is drawn while a
learner gathers what it needs.  What it gathers can then be read off the store
before: thresholds, factors and side information are those of the store, and
parameters of side information are those of the store or zeros
(`Store.reading`).

This is all there is to gathering: whatever is gathered can be read off
(`Learner.readOff_of_run`), and whatever can be read off is gathered
(`Learner.exists_run_gather`).
-/

namespace LatentFactors

variable {α : Type} [Scalar α]

/-- What was gathered for a user and an item is what the store reads as. -/
structure Gathered.ReadOff (g : Gathered α) (l : Learner α) (user item : Id) (s : Store α) :
    Prop where
  cuts : g.cuts = s.cuts
  users : s.families.find? ⟨.userFactors, user⟩ = some g.users
  items : s.families.find? ⟨.itemFactors, item⟩ = some g.items
  terms : g.terms.map (·.term) = l.sideTerms user item
  parameters : ∀ x ∈ g.terms, s.reading x.term.key = .ok x.parameters
  features : ∀ x ∈ g.terms, s.side x.term.feature = .ok x.feature

namespace Learner

variable {l : Learner α} {user item : Id} {s : Store α} {g : Gathered α}

/-- What is gathered can be read off the store before, if the factors are
there. -/
theorem readOff_of_run {t : Store α} (huser : s.hasFamily .userFactors user = true)
    (hitem : s.hasFamily .itemFactors item = true)
    (h : (l.gather user item).run s = (.ok g, t)) : g.ReadOff l user item s := by
  have hread := readFrom_of_run h
  have hgrows := (gather_moves l user item).of_run h
  have hsame : s.SameReadings t :=
    (moves_gather fun key _ => Store.family_sameReadings key.kind key.owner).of_run h
  have hpresent {key : FamilyKey} {family : Family α} (hs : (s.families.find? key).isSome = true)
      (ht : t.families.find? key = some family) : s.families.find? key = some family := by
    obtain ⟨before, hbefore⟩ := Option.isSome_iff_exists.1 hs
    rw [← ht, hgrows.find?_eq_some hbefore, hbefore]
  refine ⟨hread.cuts.trans hgrows.cuts, hpresent huser hread.users, hpresent hitem hread.items,
    hread.terms, fun x hx => ?_, fun x hx => ?_⟩
  · have hterm := term_mem_sideTerms hread.terms hx
    rw [← hsame.readings x.term.key _ (sideTerms_spec hterm).2.1]
    exact Store.reading_of_find? (hread.parameters x hx)
  · rw [← hgrows.side_eq]
    exact hread.features x hx

/-- What can be read off a store is gathered. -/
theorem exists_run_gather (h : g.ReadOff l user item s) :
    ∃ t, (l.gather user item).run s = (.ok g, t) := by
  obtain ⟨cuts, users, items, terms⟩ := g
  obtain ⟨rfl, husers, hitems, hterms, hparameters, hfeatures⟩ := h
  have hrun₁ : (Store.family .userFactors user).run s = (.ok users, s) := by
    rw [Store.run_family, husers]
  have hrun₂ : (Store.family .itemFactors item).run s = (.ok items, s) := by
    rw [Store.run_family, hitems]
  have hread : l.features user item s = .ok (terms.map fun x => (x.term, x.feature)) := by
    refine features_eq_ok_iff.2 ⟨?_, fun pair hpair => ?_⟩
    · rw [List.map_map]
      exact hterms
    · obtain ⟨x, hx, rfl⟩ := List.mem_map.1 hpair
      exact hfeatures x hx
  obtain ⟨t, hrun₃, -⟩ : ∃ t, ((terms.map fun x => (x.term, x.feature)).mapM readTerm).run s =
      (.ok terms, t) ∧ s.SameReadings t := by
    refine Stateful.exists_run_mapM_of_forall₂ ?_ (refl_of Store.SameReadings s)
    rw [List.forall₂_map_left_iff, List.forall₂_same]
    intro x hx t ht
    have hterm := term_mem_sideTerms hterms hx
    have hreading : t.reading x.term.key = .ok x.parameters :=
      (ht.readings _ _ (sideTerms_spec hterm).2.1).trans (hparameters x hx)
    have hrun := Store.run_of_outcome hreading
    refine ⟨_, ?_, trans_of Store.SameReadings ht ((Store.family_sameReadings _ _).of_run hrun)⟩
    rw [readTerm, Store.run_bind_of_ok hrun]
    rfl
  refine ⟨t, ?_⟩
  rw [gather, Store.run_bind_of_ok hrun₁, Store.run_bind_of_ok hrun₂,
    Store.run_bind_of_ok (Store.run_get s), hread, Store.run_bind_of_ok (Store.run_lift _ s)]
  exact Store.run_bind_of_ok hrun₃ _

end Learner

end LatentFactors
