import Tabular.Proofs.Definition.Lines
import Tabular.Proofs.Definition.Shift

/-!
# The lines of a text as they are written

A text is what line feeds part, and every list of lines without line feeds is the list of
some text. What the reader takes for lines differs from that in two ways. A byte-order mark
at the start belongs to no line, and what follows the last line feed is a line only if there
is something. The second difference does not show: a line of blanks at the end makes no
entry, and adds nothing to a value that is still open there.
-/

namespace Tabular.Definition

open Text

/-- The text of lines. -/
def ofRawLines (lines : List (List Char)) : String :=
  String.ofList (List.intercalate ['\n'] lines)

/-- The lines of a text, as many as it has line feeds and one more. -/
def rawLines (text : String) : List (List Char) := text.toList.splitOn '\n'

/-- Lines without the byte-order mark that the first of them may start with. -/
def withoutMarkInFirst : List (List Char) → List (List Char)
  | [] => []
  | l :: rest => withoutMark l :: rest

theorem rawLines_ne_nil (text : String) : rawLines text ≠ [] :=
  List.splitOn_ne_nil '\n' text.toList

theorem ofRawLines_rawLines (text : String) : ofRawLines (rawLines text) = text := by
  rw [ofRawLines, rawLines, List.intercalate_splitOn, String.ofList_toList]

theorem rawLines_ofRawLines {lines : List (List Char)} (hne : lines ≠ [])
    (h : ∀ l ∈ lines, '\n' ∉ l) : rawLines (ofRawLines lines) = lines := by
  rw [rawLines, ofRawLines, String.toList_ofList, List.splitOn_intercalate '\n' h hne]

theorem not_mem_of_mem_rawLines {text : String} {l : List Char} (h : l ∈ rawLines text) :
    '\n' ∉ l := by
  rw [rawLines] at h
  generalize text.toList = cs at h
  induction cs generalizing l with
  | nil =>
      rw [List.splitOn_nil, List.mem_singleton] at h
      subst h
      exact List.not_mem_nil
  | cons c cs ih =>
      obtain ⟨first, rest, hsplit⟩ :=
        List.exists_cons_of_ne_nil (List.splitOn_ne_nil '\n' cs)
      rw [List.splitOn_cons_eq_if_modifyHead] at h
      rw [hsplit] at h ih
      by_cases hc : c = '\n'
      · rw [if_pos (beq_iff_eq.mpr hc)] at h
        rcases List.mem_cons.mp h with rfl | h
        · exact List.not_mem_nil
        · exact ih h
      · rw [if_neg fun heq => hc (beq_iff_eq.mp heq), List.modifyHead_cons] at h
        rcases List.mem_cons.mp h with rfl | h
        · intro hmem
          rcases List.mem_cons.mp hmem with heq | hmem
          · exact hc heq.symm
          · exact ih List.mem_cons_self hmem
        · exact ih (List.mem_cons_of_mem first h)

/-! ## What the reader takes for lines -/

theorem splitLines_ended (cs : List Char) : splitLines (cs ++ ['\n']) = cs.splitOn '\n' := by
  induction cs with
  | nil => rfl
  | cons c cs ih =>
      obtain ⟨first, rest, hsplit⟩ :=
        List.exists_cons_of_ne_nil (List.splitOn_ne_nil '\n' cs)
      rw [List.cons_append, splitLines_cons, ih, List.splitOn_cons_eq_if_modifyHead, hsplit,
        addChar_cons]
      by_cases hc : c = '\n'
      · rw [if_pos hc, if_pos (beq_iff_eq.mpr hc)]
      · rw [if_neg hc, if_neg fun heq => hc (beq_iff_eq.mp heq), List.modifyHead_cons]

theorem withoutMark_cons_of_ne {c : Char} (h : c ≠ '\uFEFF') (cs : List Char) :
    withoutMark (c :: cs) = c :: cs := withoutMark_of_head? fun hmark => h (Option.some.inj hmark)

theorem splitOn_withoutMark (cs : List Char) :
    (withoutMark cs).splitOn '\n' = withoutMarkInFirst (cs.splitOn '\n') := by
  cases cs with
  | nil => rfl
  | cons c cs =>
      obtain ⟨first, rest, hsplit⟩ :=
        List.exists_cons_of_ne_nil (List.splitOn_ne_nil '\n' cs)
      by_cases hmark : c = '\uFEFF'
      · subst hmark
        rw [List.splitOn_cons_eq_if_modifyHead, hsplit, if_neg (by decide), List.modifyHead_cons]
        exact hsplit
      · rw [withoutMark_cons_of_ne hmark, List.splitOn_cons_eq_if_modifyHead, hsplit]
        split
        · rfl
        · show (c :: first) :: rest = withoutMark (c :: first) :: rest
          rw [withoutMark_cons_of_ne hmark]

theorem intercalate_cons_cons (l m : List Char) (rest : List (List Char)) :
    List.intercalate ['\n'] (l :: m :: rest) =
      l ++ '\n' :: List.intercalate ['\n'] (m :: rest) := by
  simp [List.intercalate]

theorem intercalate_append_singleton {lines : List (List Char)} (h : lines ≠ []) (l : List Char) :
    List.intercalate ['\n'] (lines ++ [l]) = List.intercalate ['\n'] lines ++ '\n' :: l := by
  induction lines with
  | nil => exact absurd rfl h
  | cons m rest ih =>
      cases rest with
      | nil => simp [List.intercalate]
      | cons m' rest =>
          have hrest := ih (List.cons_ne_nil m' rest)
          rw [List.cons_append] at hrest
          rw [List.cons_append, List.cons_append, intercalate_cons_cons, hrest,
            intercalate_cons_cons, List.append_assoc, List.cons_append]

/-- Line feeds at the end of a value between fences do not belong to it. -/
theorem dropWhile_feed_append (v : List Char) :
    ((v ++ ['\n']).dropWhile (· == '\n')).reverse.dropWhile (· == '\n') =
      (v.dropWhile (· == '\n')).reverse.dropWhile (· == '\n') := by
  induction v with
  | nil => rfl
  | cons c v ih =>
      by_cases hc : (c == '\n') = true
      · simp only [List.cons_append, List.dropWhile_cons, hc, if_true]
        exact ih
      · simp only [List.cons_append, List.dropWhile_cons, hc, Bool.false_eq_true, if_false]
        rw [← List.cons_append, List.reverse_append, List.reverse_singleton,
          List.singleton_append, List.dropWhile_cons]
        rfl

theorem fencedValue_blank (body : List Line) :
    fencedValue (body ++ [Line.blank]) = fencedValue body := by
  have hdedented : dedented (body ++ [Line.blank]) = dedented body ++ [[]] := by
    have hnone : [Line.blank].filter (!·.isBlank) = [] := rfl
    rw [dedented, dedented, List.filter_append, hnone, List.append_nil, List.map_append]
    rfl
  cases body with
  | nil => rfl
  | cons l rest =>
      rw [fencedValue, fencedValue, dedent, dedent, hdedented,
        intercalate_append_singleton (by rw [dedented]; exact List.cons_ne_nil _ _)]
      simp only [dropWhile_feed_append]

/-- A blank line at the end shows nowhere. -/
theorem entriesFrom_blankEnd (number : Nat) (r : Reading) (lines : List Line) :
    entriesFrom number r (lines ++ [Line.blank]) = entriesFrom number r lines := by
  induction lines generalizing number r with
  | nil =>
      obtain ⟨mode, description⟩ := r
      cases mode with
      | lines => rfl
      | body head start soFar blanks => rfl
      | fenced head soFar =>
          show [head.entry (some (fencedValue (soFar ++ [Line.blank])))] =
            [head.entry (some (fencedValue soFar))]
          rw [fencedValue_blank]
  | cons l rest ih => rw [List.cons_append, entriesFrom_cons, entriesFrom_cons, ih]

/-- The lines of a text are those that the reader takes, or one more that is blank. -/
theorem map_ofRaw_rawLines (text : String) :
    (withoutMarkInFirst (rawLines text)).map Line.ofRaw = linesOf text
      ∨ (withoutMarkInFirst (rawLines text)).map Line.ofRaw = linesOf text ++ [Line.blank] := by
  rw [linesOf_eq, rawLines, ← splitOn_withoutMark, ← splitLines_ended]
  rcases splitLines_lineFeed (withoutMark text.toList) with heq | heq
  · exact Or.inl (by rw [heq])
  · exact Or.inr (by rw [heq, List.map_append]; rfl)

/-- The entries of a text are those of all its lines, also of an empty one at the end. -/
theorem entries_eq_entriesFrom (text : String) :
    entries text = entriesFrom 1 {} ((withoutMarkInFirst (rawLines text)).map Line.ofRaw) := by
  rcases map_ofRaw_rawLines text with heq | heq
  · rw [heq, entries]
  · rw [heq, entriesFrom_blankEnd, entries]

/-- Without a byte-order mark at the start of a text, its lines are as they stand there. -/
theorem withoutMarkInFirst_rawLines {text : String} (h : text.toList.head? ≠ some '\uFEFF') :
    withoutMarkInFirst (rawLines text) = rawLines text := by
  rw [rawLines, ← splitOn_withoutMark, withoutMark_of_head? h]

end Tabular.Definition
