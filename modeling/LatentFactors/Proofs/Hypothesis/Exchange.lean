import Mathlib.Data.List.Zip
import LatentFactors.Proofs.Vec.Exchange
import LatentFactors.Proofs.Hypothesis.Scores

/-!
# Scores of exchanged families

In exact arithmetic the scores of a user and an item do not tell the one from
the other: if both families are exchanged and change sides, and the side terms
are taken in another order, then the scores stay
(`Hypothesis.linearCombination_exchanged`).  The products of the factors stay
because every entry meets the same entry as before, and the sum of a score does
not depend on the order of what is added (`Hypothesis.classScore_perm`).
-/

namespace LatentFactors.Hypothesis

variable {K : Type} [ExactScalar K] {users items : Family K}
  {terms terms' : List (Family K × Vec K)}

/-- The score of a class does not depend on the order of its terms. -/
theorem classScore_perm {c : Nat} {user item : Vec K} {x : K} (h : terms.Perm terms')
    (hscore : classScore c user item terms = .ok x) : classScore c user item terms' = .ok x := by
  obtain ⟨start, hstart, hscore⟩ := Outcome.bind_eq_ok.1 hscore
  refine Outcome.bind_eq_ok.2 ⟨start, hstart, Outcome.foldlM_perm h ?_ hscore⟩
  intro score t t' result hsteps
  obtain ⟨score', hstep, hsteps⟩ := Outcome.bind_eq_ok.1 hsteps
  obtain ⟨v, hv, hstep⟩ := Outcome.bind_eq_ok.1 hstep
  obtain ⟨a, ha, hstep⟩ := Outcome.bind_eq_ok.1 hstep
  obtain ⟨w, hw, hsteps⟩ := Outcome.bind_eq_ok.1 hsteps
  obtain ⟨b, hb, hsteps⟩ := Outcome.bind_eq_ok.1 hsteps
  cases hstep
  cases hsteps
  rw [hv, hw, Outcome.bind_ok, hb, Outcome.bind_ok, Outcome.pure_eq_ok, Outcome.bind_ok,
    Outcome.bind_ok, ha, Outcome.bind_ok, Outcome.pure_eq_ok, add_right_comm]

/-- The score of a class stays if its factors are exchanged and change sides. -/
theorem classScore_exchanged {c : Nat} {user item : Vec K} {x : K} (huser : user.IsFactor)
    (hitem : item.IsFactor) (hsize : user.size = item.size) (h : terms.Perm terms')
    (hscore : classScore c user item terms = .ok x) :
    classScore c item.exchanged user.exchanged terms' = .ok x := by
  rw [classScore, Vec.dot_exchanged huser hitem hsize]
  exact classScore_perm h hscore

/-- The scores stay if all factors are exchanged and change sides. -/
theorem linearCombination_exchanged {h : Hypothesis} {cuts scores : List K}
    (husers : users.AreFactors) (hitems : items.AreFactors)
    (hsizes : ∀ v ∈ users, ∀ w ∈ items, v.size = w.size) (hterms : terms.Perm terms')
    (hscores : h.linearCombination cuts users items terms = .ok scores) :
    h.linearCombination cuts items.exchanged users.exchanged terms' = .ok scores := by
  have hscore {c c' : Nat} {v w : Vec K} {x : K} (hv : users[c]? = some v) (hw : items[c]? = some w)
      (hx : classScore c' v w terms = .ok x) :
      classScore c' w.exchanged v.exchanged terms' = .ok x := by
    have hv := List.mem_of_getElem? hv
    have hw := List.mem_of_getElem? hw
    exact classScore_exchanged (husers v hv) (hitems w hw) (hsizes v hv w hw) hterms hx
  rcases eq_or_ne h .ordinal with rfl | hkind
  · obtain ⟨v, hv, hscores⟩ := Outcome.bind_eq_ok.1 hscores
    obtain ⟨w, hw, hscores⟩ := Outcome.bind_eq_ok.1 hscores
    obtain ⟨x, hx, hscores⟩ := Outcome.bind_eq_ok.1 hscores
    rw [linearCombination, Family.nth_exchanged hw, Outcome.bind_ok, Family.nth_exchanged hv,
      Outcome.bind_ok, hscore (Outcome.nth_eq_ok_iff.1 hv) (Outcome.nth_eq_ok_iff.1 hw) hx]
    exact hscores
  · have hplaces : (items.exchanged.zip users.exchanged).zipIdx =
        (users.zip items).zipIdx.map
          (Prod.map (fun e => (e.2.exchanged, e.1.exchanged)) id) := by
      rw [← List.zip_swap users.exchanged, Family.exchanged, Family.exchanged, List.zip_map,
        List.map_map, List.zipIdx_map]
      rfl
    by_cases hsame : users.length = items.length
    · have hsame' : items.exchanged.length = users.exchanged.length := by
        rw [Family.length_exchanged, Family.length_exchanged, hsame]
      rw [linearCombination_of_classes hkind hsame] at hscores
      rw [linearCombination_of_classes hkind hsame', hplaces]
      refine Outcome.mapM_map_eq_ok hscores ?_
      rintro ⟨⟨v, w⟩, c⟩ hmem x hx
      obtain ⟨hv, hw⟩ := List.getElem?_zip_eq_some.1 (List.mem_zipIdx_iff_getElem?.1 hmem)
      exact hscore hv hw hx
    · rw [linearCombination_of_lengths hkind hsame] at hscores
      cases hscores

end LatentFactors.Hypothesis
