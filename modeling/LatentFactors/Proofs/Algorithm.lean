import LatentFactors.Algorithm
import LatentFactors.Proofs.Outcome
import LatentFactors.Proofs.Table

/-!
# Settings from named parameters

The setting of a field is the parameter with its name, or the default if there is none
(`LearnerConfig.setting_of_ofParams`).  An algorithm fixes the hypothesis, which is found by
its name again (`Hypothesis.resolve_of_parameter`), the number of classes and their order.  It
takes every other setting from the parameters that it is given
(`Hypothesis.setting_of_config`).
-/

namespace LatentFactors

namespace Field

theorem named?_name (field : Field) : named? field.name = some field := by
  cases field <;> rfl

theorem name_of_named? {name : String} {field : Field} (h : named? name = some field) :
    field.name = name := by
  rw [named?] at h
  exact LawfulBEq.eq_of_beq (List.find?_some h :)

theorem name_injective : Function.Injective name := fun field field' h => by
  have hnamed := named?_name field
  rw [h, named?_name] at hnamed
  exact (Option.some.inj hnamed).symm

end Field

variable {α : Type}

namespace LearnerConfig

theorem setting_take (c : LearnerConfig α) (name : String) (s : Setting α) (field : Field) :
    (c.take name s).setting field = if name == field.name then s else c.setting field := by
  rw [take]
  split
  · next named hnamed =>
    rw [setting_set, ← Field.name_of_named? hnamed]
    by_cases hfield : field = named
    · rw [if_pos hfield, if_pos (by rw [hfield, beq_self_eq_true])]
    · have hname : ¬(named.name == field.name) = true := fun heq =>
        hfield (Field.name_injective (LawfulBEq.eq_of_beq heq)).symm
      rw [if_neg hfield, if_neg hname]
  · next hnone =>
    have hname : ¬(name == field.name) = true := fun heq => by
      rw [LawfulBEq.eq_of_beq heq, Field.named?_name] at hnone
      cases hnone
    rw [if_neg hname]

theorem setting_foldl_take {entries : List (String × Setting α)}
    (h : entries.Pairwise fun a b => (a.1 == b.1) = false) (c : LearnerConfig α) (field : Field) :
    (entries.foldl (fun c e => c.take e.1 e.2) c).setting field =
      (Table.findEntry field.name entries).getD (c.setting field) := by
  induction entries generalizing c with
  | nil => rfl
  | cons e rest ih =>
    obtain ⟨hfirst, hrest⟩ := List.pairwise_cons.1 h
    rw [List.foldl_cons, ih hrest, setting_take, Table.findEntry]
    by_cases hname : (e.1 == field.name) = true
    · have hnone : Table.findEntry field.name rest = none :=
        Table.findEntry_eq_none_iff.2 fun a ha => by
          rw [← LawfulBEq.eq_of_beq hname, BEq.comm]
          exact hfirst a ha
      rw [if_pos hname, if_pos hname, hnone]
      rfl
    · rw [if_neg hname, if_neg hname]

variable [Scalar α]

/-- A setting is the parameter with the name of its field, or the default. -/
theorem setting_of_ofParams {params : Params α} {c : LearnerConfig α}
    (hdistinct : params.keys.Pairwise fun a b => (a == b) = false) (h : ofParams params = .ok c)
    (field : Field) :
    c.setting field = (params.find? field.name).getD (default.setting field) := by
  rw [ofParams] at h
  split at h
  · cases h
  · cases h
    exact setting_foldl_take (List.pairwise_map.1 hdistinct) default field

end LearnerConfig

namespace Hypothesis

/-! ## Names of hypotheses -/

theorem toList_parameter (h : Hypothesis) : h.parameter.toList = h.name.toList.map Char.toLower :=
  String.toList_map

theorem toLower_parameter (h : Hypothesis) : h.parameter.toLower = h.parameter := by
  have hlower : h.parameter.toLower.toList = h.parameter.toList.map Char.toLower :=
    String.toList_map
  refine String.toList_injective (hlower.trans ?_)
  rw [toList_parameter]
  cases h <;> decide

theorem parameter_injective : Function.Injective parameter := fun h j hsame => by
  have hnames := congrArg String.toList hsame
  rw [toList_parameter, toList_parameter] at hnames
  revert hnames
  cases h <;> cases j <;> decide

/-- A hypothesis is found by its parameter name. -/
theorem named?_parameter (h : Hypothesis) : named? h.parameter = some h := by
  have hsame (j : Hypothesis) : (j.name.toLower == h.parameter.toLower) = decide (j = h) := by
    rw [toLower_parameter]
    exact Bool.eq_iff_iff.2
      (beq_iff_eq.trans (parameter_injective.eq_iff.trans decide_eq_true_iff.symm))
  rw [named?]
  simp only [hsame]
  cases h <;> rfl

theorem hypothesisNamed_parameter (h : Hypothesis) :
    (LearnerConfig.hypothesisNamed h.parameter : Outcome α Hypothesis) = .ok h := by
  rw [LearnerConfig.hypothesisNamed, named?_parameter]

variable [Scalar α]

/-- A configuration with the parameter name of a hypothesis resolves to it, if it admits the
number of classes. -/
theorem resolve_of_parameter {c : LearnerConfig α} {h : Hypothesis}
    (hname : c.setting .hypothesis = .text h.parameter)
    (hadmits : LearnerConfig.admits h (c.setting .classes) = .ok true) : c.resolve = .ok h := by
  rw [LearnerConfig.resolve, hname]
  dsimp only [Setting.spelling]
  rw [hypothesisNamed_parameter, Outcome.bind_ok, hadmits]
  rfl

/-- It resolves to nothing else. -/
theorem eq_of_resolve {c : LearnerConfig α} {h h' : Hypothesis}
    (hname : c.setting .hypothesis = .text h.parameter) (hresolve : c.resolve = .ok h') :
    h' = h := by
  rw [LearnerConfig.resolve, hname] at hresolve
  dsimp only [Setting.spelling] at hresolve
  rw [hypothesisNamed_parameter, Outcome.bind_ok] at hresolve
  obtain ⟨admitted, -, hresolve⟩ := Outcome.bind_eq_ok.1 hresolve
  split at hresolve
  · cases hresolve
    rfl
  · cases hresolve

/-! ## Settings of algorithms -/

/-- The fields that an algorithm completes. -/
def completed : List Field := [.hypothesis, .classes, .ordinal]

/-- Parameters with other ones for the fields that an algorithm completes. -/
structure Completes (params t : Params α) : Prop where
  goesOn : Table.GoesOn params t
  find?_eq {field : Field} (h : field ∉ completed) : t.find? field.name = params.find? field.name

omit [Scalar α] in
private theorem completes_insert_aux {params t : Params α} (h : Completes params t) (field : Field)
    (hfield : field ∈ completed) (s : Setting α) : Completes params (t.insert field.name s) where
  goesOn := h.goesOn.trans (Table.goesOn_insert t field.name s)
  find?_eq {other} hother := by
    have hname : ¬(field.name == other.name) = true := fun heq =>
      hother (Field.name_injective (LawfulBEq.eq_of_beq heq) ▸ hfield)
    rw [Table.find?_insert, if_neg hname, h.find?_eq hother]

omit [Scalar α] in
theorem completes_complete (h : Hypothesis) (params : Params α) :
    Completes params (h.complete params) := by
  have hrefl : Completes params params := ⟨.refl params, fun _ => rfl⟩
  -- The hypothesis and the order come after the number of classes, whatever that adds.
  have hnamed {t : Params α} (ht : Completes params t) :
      Completes params (
        let t := t.insert Field.hypothesis.name (.text h.parameter)
        if h = .ordinal then t.insert Field.ordinal.name (.flag true) else t) := by
    have hnamed := completes_insert_aux ht .hypothesis (by decide) (.text h.parameter)
    dsimp only
    split
    · exact completes_insert_aux hnamed .ordinal (by decide) (.flag true)
    · exact hnamed
  refine hnamed ?_
  split
  · split
    · exact hrefl
    · exact completes_insert_aux hrefl .classes (by decide) _
  · exact hrefl

/-- Apart from what an algorithm completes, a setting is the parameter with the name of its
field, or the default. -/
theorem setting_of_config {h : Hypothesis} {params : Params α} {c : LearnerConfig α}
    (hdistinct : params.keys.Pairwise fun a b => (a == b) = false) (hc : h.config params = .ok c)
    {field : Field} (hfield : field ∉ completed) :
    c.setting field = (params.find? field.name).getD (LearnerConfig.default.setting field) := by
  have hcompletes := h.completes_complete params
  rw [LearnerConfig.setting_of_ofParams (hcompletes.goesOn.distinct hdistinct) hc,
    hcompletes.find?_eq hfield]

end Hypothesis

end LatentFactors
