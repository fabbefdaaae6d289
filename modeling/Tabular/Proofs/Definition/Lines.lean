import Tabular.Definition.Line

/-!
# The lines of two texts in a row

Where a line feed stands between two texts, the lines of the whole are those of the first
text, ended by the line feed, and those of the second. The line feed ends the last line
that the first text has left open, and is an empty line of its own when there is none.
Either way the lines in front of the second text are one more than the line feeds of the
first one.

A byte-order mark is taken away at the start of a text only. In the whole it may stand at
the start of the first text, and so the second one must not begin with one.
-/

namespace Tabular.Definition

open Text

/-! ## Splitting -/

theorem addChar_cons (c : Char) (l : List Char) (rest : List (List Char)) :
    addChar c (l :: rest) = if c = '\n' then [] :: l :: rest else (c :: l) :: rest := rfl

theorem addChar_ne_nil (c : Char) (lines : List (List Char)) : addChar c lines ≠ [] := by
  rw [addChar.eq_def]
  split
  · exact List.cons_ne_nil _ _
  · split
    · exact List.cons_ne_nil _ _
    · exact List.cons_ne_nil _ _

theorem addChar_append (c : Char) {a : List (List Char)} (ha : a ≠ [])
    (b : List (List Char)) : addChar c (a ++ b) = addChar c a ++ b := by
  obtain ⟨l, rest, rfl⟩ := List.exists_cons_of_ne_nil ha
  rw [List.cons_append, addChar_cons, addChar_cons]
  split
  · rfl
  · rfl

theorem splitLines_cons (c : Char) (text : List Char) :
    splitLines (c :: text) = addChar c (splitLines text) := rfl

theorem splitLines_ne_nil {text : List Char} (h : text ≠ []) : splitLines text ≠ [] := by
  obtain ⟨c, rest, rfl⟩ := List.exists_cons_of_ne_nil h
  exact addChar_ne_nil c (splitLines rest)

/-- A line feed parts the lines in front of it from those behind it. -/
theorem splitLines_append (a b : List Char) :
    splitLines (a ++ '\n' :: b) = splitLines (a ++ ['\n']) ++ splitLines b := by
  induction a with
  | nil => rfl
  | cons c a ih =>
      have hne : splitLines (a ++ ['\n']) ≠ [] := splitLines_ne_nil (by simp)
      rw [List.cons_append, List.cons_append, splitLines_cons, splitLines_cons, ih,
        addChar_append c hne]

/-- A line feed ends the last line, or is an empty line. -/
theorem splitLines_lineFeed (a : List Char) :
    splitLines (a ++ ['\n']) = splitLines a
      ∨ splitLines (a ++ ['\n']) = splitLines a ++ [[]] := by
  induction a with
  | nil => exact Or.inr rfl
  | cons c a ih =>
      rw [List.cons_append, splitLines_cons, splitLines_cons]
      cases a with
      | nil =>
          by_cases hc : c = '\n'
          · subst hc
            exact Or.inr rfl
          · refine Or.inl ?_
            simp [splitLines, addChar, hc]
      | cons d a =>
          rcases ih with ih | ih
          · exact Or.inl (congrArg (addChar c) ih)
          · refine Or.inr ?_
            rw [ih, addChar_append c (splitLines_ne_nil (List.cons_ne_nil d a))]

theorem length_addChar (c : Char) {lines : List (List Char)} (h : lines ≠ []) :
    (addChar c lines).length = lines.length + if c = '\n' then 1 else 0 := by
  obtain ⟨l, rest, rfl⟩ := List.exists_cons_of_ne_nil h
  rw [addChar_cons]
  split
  · rfl
  · rfl

/-- Lines that are all ended are as many as the line feeds. -/
theorem length_splitLines (a : List Char) :
    (splitLines (a ++ ['\n'])).length = a.count '\n' + 1 := by
  induction a with
  | nil => rfl
  | cons c a ih =>
      have hne : splitLines (a ++ ['\n']) ≠ [] := splitLines_ne_nil (by simp)
      rw [List.cons_append, splitLines_cons, length_addChar c hne, ih, List.count_cons]
      by_cases hc : c = '\n'
      · rw [if_pos hc, if_pos (beq_iff_eq.mpr hc)]
      · rw [if_neg hc, if_neg fun heq => hc (beq_iff_eq.mp heq)]

/-! ## Lines of a definition -/

/-- A text without the byte-order mark it may start with. -/
def withoutMark : List Char → List Char
  | '\uFEFF' :: rest => rest
  | cs => cs

theorem linesOf_eq (text : String) :
    linesOf text = (splitLines (withoutMark text.toList)).map Line.ofRaw := rfl

theorem withoutMark_of_head? {cs : List Char} (h : cs.head? ≠ some '\uFEFF') :
    withoutMark cs = cs := by
  rw [withoutMark]
  intro rest hcs
  rw [hcs] at h
  exact h rfl

theorem withoutMark_append (a b : List Char) :
    withoutMark (a ++ '\n' :: b) = withoutMark a ++ '\n' :: b := by
  cases a with
  | nil => exact withoutMark_of_head? (by simp)
  | cons c a =>
      by_cases hc : c = '\uFEFF'
      · subst hc
        rfl
      · have hmark : (c :: a).head? ≠ some '\uFEFF' := fun h => hc (Option.some.inj h)
        rw [withoutMark_of_head? hmark]
        exact withoutMark_of_head? fun h => hc (Option.some.inj h)

theorem count_withoutMark (cs : List Char) : (withoutMark cs).count '\n' = cs.count '\n' := by
  cases cs with
  | nil => rfl
  | cons c cs =>
      by_cases hc : c = '\uFEFF'
      · subst hc
        rw [List.count_cons_of_ne (by decide)]
        rfl
      · have hmark : (c :: cs).head? ≠ some '\uFEFF' := fun h => hc (Option.some.inj h)
        rw [withoutMark_of_head? hmark]

/-- The number of lines in front of a text that is put behind another one and a line
feed. -/
def linesBefore (a : String) : Nat := a.toList.count '\n' + 1

/-- The lines of two texts with a line feed in between. -/
theorem linesOf_append (a : String) {b : String} (hb : b.toList.head? ≠ some '\uFEFF') :
    linesOf (a ++ "\n" ++ b) = linesOf (a ++ "\n") ++ linesOf b := by
  have hwhole : (a ++ "\n" ++ b).toList = a.toList ++ '\n' :: b.toList := by simp
  have hfirst : (a ++ "\n").toList = a.toList ++ ['\n'] := by simp
  rw [linesOf_eq, linesOf_eq, linesOf_eq, hwhole, hfirst, withoutMark_append,
    withoutMark_append, withoutMark_of_head? hb, splitLines_append, List.map_append]

theorem length_linesOf (a : String) : (linesOf (a ++ "\n")).length = linesBefore a := by
  have hfirst : (a ++ "\n").toList = a.toList ++ ['\n'] := by simp
  rw [linesOf_eq, hfirst, withoutMark_append, List.length_map, length_splitLines,
    count_withoutMark, linesBefore]

/-- A line feed behind a text adds a blank line or none. -/
theorem linesOf_lineFeed (a : String) :
    linesOf (a ++ "\n") = linesOf a ∨ linesOf (a ++ "\n") = linesOf a ++ [Line.blank] := by
  have hfirst : (a ++ "\n").toList = a.toList ++ ['\n'] := by simp
  rw [linesOf_eq, linesOf_eq, hfirst, withoutMark_append]
  rcases splitLines_lineFeed (withoutMark a.toList) with h | h
  · rw [h]
    exact Or.inl rfl
  · rw [h, List.map_append]
    exact Or.inr rfl

end Tabular.Definition
