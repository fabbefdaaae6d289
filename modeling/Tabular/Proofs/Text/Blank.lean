import Mathlib.Data.List.DropRight
import Tabular.Text.Blank

/-!
# Trimming texts in a row

What is trimmed at the end of two texts is trimmed off the second, unless that one holds
blanks only. So a text keeps both its ends when it starts with one that keeps its start and
goes on with one that keeps its end.
-/

namespace Tabular.Text

/-- Between the blanks of ASCII and the next ones no character is blank. -/
theorem isBlank_eq_false {c : Char} (hlow : 32 < c.toNat) (hhigh : c.toNat < 133) :
    isBlank c = false := by
  rw [← Bool.not_eq_true]
  intro hblank
  obtain ⟨r, hr, hfirst, hlast⟩ := exists_mem_of_inRanges hblank
  have hapart : r.2 ≤ 32 ∨ 133 ≤ r.1 := (by decide : ∀ r ∈ blankRanges, r.2 ≤ 32 ∨ 133 ≤ r.1) r hr
  omega

theorem trimEnd_append_of_allBlank {w : List Char} (h : allBlank w = true) (l : List Char) :
    trimEnd (l ++ w) = trimEnd l := by
  have hblank : ∀ c ∈ w.reverse, isBlank c = true := by
    intro c hc
    exact List.all_eq_true.mp h c (List.mem_reverse.mp hc)
  rw [trimEnd, trimEnd, List.reverse_append, List.dropWhile_append_of_pos hblank]

theorem trimEnd_append_of_not_allBlank {l : List Char} (h : ¬ allBlank l = true)
    (front : List Char) : trimEnd (front ++ l) = front ++ trimEnd l := by
  have hne : ¬ (l.reverse.dropWhile isBlank).isEmpty = true := by
    intro hempty
    have hnil : trimEnd l = [] := by rw [trimEnd, List.isEmpty_iff.mp hempty, List.reverse_nil]
    exact h (trimEnd_eq_nil_iff.mp hnil)
  rw [trimEnd, trimEnd, List.reverse_append, List.dropWhile_append, if_neg hne,
    List.reverse_append, List.reverse_reverse]

theorem length_trimEnd_le (l : List Char) : (trimEnd l).length ≤ l.length :=
  List.IsPrefix.length_le (List.rdropWhile_prefix isBlank l)

/-- Only blanks are trimmed. -/
theorem exists_blanks (l : List Char) : ∃ w, allBlank w = true ∧ l = trimEnd l ++ w :=
  ⟨l.rtakeWhile isBlank, List.all_eq_true.mpr fun _ hc => List.mem_rtakeWhile_imp hc,
    List.rdropWhile_append_rtakeWhile.symm⟩

theorem trimEnd_trimEnd (l : List Char) : trimEnd (trimEnd l) = trimEnd l := by
  rw [trimEnd, trimEnd, List.reverse_reverse, List.dropWhile_idempotent]

theorem trimEnd_cons {c : Char} {l : List Char} (hc : isBlank c = false) (h : trimEnd l = l) :
    trimEnd (c :: l) = c :: l := by
  by_cases hblank : allBlank l = true
  · rw [trimEnd_eq_nil_iff.mpr hblank] at h
    subst h
    simp [trimEnd, hc]
  · rw [← List.singleton_append, trimEnd_append_of_not_allBlank hblank, h]

theorem trim_eq_nil_iff {l : List Char} : trim l = [] ↔ allBlank l = true := by
  rw [trim, trimEnd_eq_nil_iff, ← trimStart_eq_nil_iff, trimStart, trimStart,
    List.dropWhile_idempotent]
  exact trimStart_eq_nil_iff

/-- A text without the blanks it ends with is trimmed to the same. -/
theorem trim_trimEnd (l : List Char) : trim (trimEnd l) = trim l := by
  induction l with
  | nil => rfl
  | cons c l ih =>
      have hkept : ¬ allBlank l = true → trimEnd (c :: l) = c :: trimEnd l := fun h =>
        trimEnd_append_of_not_allBlank h [c]
      by_cases hc : isBlank c = true
      · have hstart : ∀ l, trim (c :: l) = trim l := fun l => by
          rw [trim, trimStart, List.dropWhile_cons_of_pos hc, ← trimStart, ← trim]
        by_cases hblank : allBlank l = true
        · rw [trimEnd_eq_nil_iff.mpr (by simpa [allBlank, hc] using hblank), hstart, trim, trim,
            trimStart_eq_nil_iff.mpr hblank]
          rfl
        · rw [hkept hblank, hstart, ih, hstart]
      · -- a text that starts with no blank is trimmed at its end only
        have hstart : ∀ l, trim (c :: l) = trimEnd (c :: l) := fun l => by
          rw [trim, trimStart, List.dropWhile_cons_of_neg hc]
        by_cases hblank : allBlank l = true
        · have hend : trimEnd (c :: l) = [c] := by
            rw [← List.singleton_append, trimEnd_append_of_allBlank hblank]
            simp [trimEnd, hc]
          rw [hend, hstart, hstart, hend]
          exact trimEnd_cons (by simpa using hc) rfl
        · rw [hkept hblank, hstart, hstart, ← hkept hblank, trimEnd_trimEnd]

/-- What has no blanks at its ends has none at its start. -/
theorem trimStart_of_trim {l : List Char} (h : trim l = l) : trimStart l = l := by
  have hlength : (trim l).length ≤ (trimStart l).length := length_trimEnd_le _
  rw [h] at hlength
  exact (List.dropWhile_suffix _).eq_of_length_le hlength

theorem trimEnd_of_trim {l : List Char} (h : trim l = l) : trimEnd l = l := by
  rwa [trim, trimStart_of_trim h] at h

theorem trimStart_append {a : List Char} (ha : trimStart a = a) (hne : a ≠ []) (b : List Char) :
    trimStart (a ++ b) = a ++ b := by
  have hfirst : ¬ (a.dropWhile isBlank).isEmpty = true := by
    rw [← trimStart, ha, List.isEmpty_iff]
    exact hne
  rw [trimStart, List.dropWhile_append, if_neg hfirst, ← trimStart, ha]

/-- A word is all that is left of it and the blanks behind it. -/
theorem trim_word_append {word blanks : List Char} (hword : ∀ c ∈ word, isBlank c = false)
    (hblanks : allBlank blanks = true) : trim (word ++ blanks) = word := by
  have hkept : ∀ l : List Char, (∀ c ∈ l, isBlank c = false) → l.dropWhile isBlank = l := by
    intro l hl
    cases l with
    | nil => rfl
    | cons c l => exact List.dropWhile_cons_of_neg (by rw [hl c List.mem_cons_self]; nofun)
  rw [← trim_trimEnd, trimEnd_append_of_allBlank hblanks, trim_trimEnd, trim, trimStart,
    hkept word hword, trimEnd, hkept _ fun c hc => hword c (List.mem_reverse.mp hc),
    List.reverse_reverse]

/-- Two texts in a row keep their ends. -/
theorem trim_append {a b : List Char} (ha : trimStart a = a) (hne : a ≠ [])
    (hb : trimEnd b = b) (hkept : ¬ allBlank b = true) : trim (a ++ b) = a ++ b := by
  rw [trim, trimStart_append ha hne, trimEnd_append_of_not_allBlank hkept, hb]

theorem trim_of_ends {first last : Char} {text : List Char} (hfirst : isBlank first = false)
    (hlast : isBlank last = false) :
    trim (first :: (text ++ [last])) = first :: (text ++ [last]) := by
  have hend : ¬ allBlank (text ++ [last]) = true := by simp [allBlank, hlast]
  have hkept : trimEnd (text ++ [last]) = text ++ [last] := by simp [trimEnd, hlast]
  exact trim_append (a := [first]) (by simp [trimStart, hfirst]) (List.cons_ne_nil _ _) hkept hend

end Tabular.Text
