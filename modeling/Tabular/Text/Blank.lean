import Tabular.Text.Range

/-!
# Blank characters and trimming

A character is blank when it has the property White_Space, so trimming takes away
no-break and ideographic spaces as well as the blanks of ASCII. The zero-width
space is not blank.

Trimming an end never looks at the other one, which is why `trim` may be taken
from either side first.
-/

namespace Tabular.Text

/-- The characters with the property White_Space. -/
def blankRanges : List (Nat × Nat) := [
  (9, 13), (32, 32), (133, 133), (160, 160), (5760, 5760), (8192, 8202), (8232, 8233),
  (8239, 8239), (8287, 8287), (12288, 12288)]

/-- Whether a character counts as white space. -/
def isBlank (c : Char) : Bool := inRanges c.toNat blankRanges

/-- A text without the blanks it starts with. -/
def trimStart (cs : List Char) : List Char := cs.dropWhile isBlank

/-- A text without the blanks it ends with. -/
def trimEnd (cs : List Char) : List Char := (cs.reverse.dropWhile isBlank).reverse

/-- A text without the blanks at its two ends. -/
def trim (cs : List Char) : List Char := trimEnd (trimStart cs)

/-- Whether a text holds blanks only. -/
def allBlank (cs : List Char) : Bool := cs.all isBlank

/-- The trimmed form of a string. -/
def trimmed (s : String) : String := String.ofList (trim s.toList)

/-- Whether a string holds blanks only. -/
def blank (s : String) : Bool := allBlank s.toList

@[simp] theorem trimStart_nil : trimStart [] = [] := rfl

@[simp] theorem trimEnd_nil : trimEnd [] = [] := rfl

@[simp] theorem trim_nil : trim [] = [] := rfl

/-- The blanks of ASCII are blank. -/
theorem isBlank_of_isWhitespace {c : Char} (h : c.isWhitespace = true) :
    isBlank c = true := by
  simp only [Char.isWhitespace, Bool.or_eq_true, decide_eq_true_eq] at h
  rcases h with ((h | h) | h) | h <;> subst h <;> decide

theorem trimStart_eq_nil_iff {cs : List Char} :
    trimStart cs = [] ↔ allBlank cs = true := by
  induction cs with
  | nil => simp [allBlank]
  | cons c rest ih =>
      simp only [trimStart, allBlank] at ih ⊢
      by_cases h : isBlank c = true <;> simp [h, ih]

/-- Trimming leaves nothing exactly when there is nothing but blanks. -/
theorem trimEnd_eq_nil_iff {cs : List Char} :
    trimEnd cs = [] ↔ allBlank cs = true := by
  have h : trimStart cs.reverse = [] ↔ allBlank cs.reverse = true := trimStart_eq_nil_iff
  rw [allBlank, List.all_reverse] at h
  exact List.reverse_eq_nil_iff.trans h

end Tabular.Text
