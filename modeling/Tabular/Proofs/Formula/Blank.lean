import Tabular.Formula.References

/-!
# A formula of blanks refers to nothing

No blank opens a name, a string or a comment. A text of blanks therefore reads as code
from its first character to its last, and code without a quote or a bracket mentions
nothing.
-/

namespace Tabular.Formula

open Text

theorem ne_of_isBlank {c mark : Char} (hc : isBlank c = true)
    (hmark : isBlank mark = false) : c ≠ mark := by
  rintro rfl
  rw [hc] at hmark
  cases hmark

theorem step_code_of_isBlank {c : Char} (hc : isBlank c = true) (following : Option Char) :
    Place.step .code c following = (.code, .code) := by
  have hquote : c ≠ '"' := ne_of_isBlank hc rfl
  have htick : c ≠ '\'' := ne_of_isBlank hc rfl
  have hbracket : c ≠ '[' := ne_of_isBlank hc rfl
  have hslash : c ≠ '/' := ne_of_isBlank hc rfl
  have hdash : c ≠ '-' := ne_of_isBlank hc rfl
  simp [Place.step, hquote, htick, hbracket, hslash, hdash]

theorem codeOnly_of_allBlank {cs : List Char} (h : allBlank cs = true) :
    codeOnly cs = cs := by
  rw [codeOnly, blankRoles]
  induction cs with
  | nil => rfl
  | cons c rest ih =>
      rw [allBlank, List.all_cons, Bool.and_eq_true] at h
      rw [roles, step_code_of_isBlank h.1]
      simp only [List.map_cons]
      rw [ih h.2]
      rfl

theorem mentionsAfter_of_allBlank {cs : List Char} (h : allBlank cs = true) :
    ∀ lead, mentionsAfter lead cs = [] := by
  induction cs with
  | nil => intro lead; rw [mentionsAfter]
  | cons c rest ih =>
      intro lead
      rw [allBlank, List.all_cons, Bool.and_eq_true] at h
      rw [mentionsAfter, if_neg (ne_of_isBlank h.1 rfl), if_neg (ne_of_isBlank h.1 rfl),
        if_neg (ne_of_isBlank h.1 rfl)]
      exact ih h.2 (c :: lead)

theorem resolve_of_blank {formula : String} (h : blank formula = true) (index : Index) :
    resolve index formula = ∅ := by
  rw [resolve, mentions, codeOnly_of_allBlank h, mentionsAfter_of_allBlank h]
  rfl

end Tabular.Formula
