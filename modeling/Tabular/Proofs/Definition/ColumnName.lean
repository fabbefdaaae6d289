import Tabular.Definition.ColumnName
import Tabular.Proofs.Definition.Written

/-!
# The ways to write a column of a relationship

A table is written between quotes or as it is, and its column behind a dot, with quotes or
without, or in brackets. Every name can be written between quotes, and every column in
brackets, since the mark that closes it is doubled inside. As it is, a name can be written if
the reading would neither trim it nor take it for a quoted one; a table must not hold the dot
or the bracket that ends it either.

However it is written, the same two names are read. And whatever is read has two names, so it
can be written down in the form with quotes around both, and is read from there again.
-/

namespace Tabular.Definition.ColumnName

open Text

/-! ## Written forms -/

/-- A name that keeps its ends without quotes around it. -/
structure Plain (name : List Char) : Prop where
  trimmed : trim name = name
  unquoted : name.head? ≠ some '\''

/-- The ways to write a table. -/
inductive WritesTable (table : List Char) : List Char → Prop
  | quoted : WritesTable table (quoteName table)
  | plain (plain : Plain table) (noDot : '.' ∉ table) (noBracket : '[' ∉ table) :
      WritesTable table table

/-- The ways to write a column behind its table. -/
inductive WritesColumn (column : List Char) : List Char → Prop
  | quoted : WritesColumn column ('.' :: quoteName column)
  | plain (plain : Plain column) : WritesColumn column ('.' :: column)
  | bracketed : WritesColumn column ('[' :: (double ']' column ++ [']']))

variable {table column text : List Char}

namespace WritesTable

theorem trimStart_eq (h : WritesTable table text) : trimStart text = text := by
  cases h with
  | quoted => exact trimStart_of_trim (trim_quoteName table)
  | plain hplain => exact trimStart_of_trim hplain.trimmed

theorem ne_nil (h : WritesTable table text) (hne : table ≠ []) : text ≠ [] := by
  cases h with
  | quoted => exact List.cons_ne_nil _ _
  | plain => exact hne

/-- A table is read up to the separator behind it. -/
theorem readTable?_append (h : WritesTable table text) {mark : Char}
    (hmark : mark = '.' ∨ mark = '[') (rest : List Char) :
    readTable? (text ++ mark :: rest) = some (table, mark :: rest) := by
  cases h with
  | quoted =>
      have hnext : (mark :: rest).head? ≠ some '\'' := by
        rcases hmark with rfl | rfl
        · simp
        · simp
      have hkept : trimStart (mark :: rest) = mark :: rest := by
        rcases hmark with rfl | rfl
        · rfl
        · rfl
      rw [quoteName, List.cons_append, List.append_assoc, List.singleton_append, readTable?,
        readUntil?_double hnext, Option.map_some]
      exact congrArg (fun after => some (table, after)) hkept
  | plain hplain hdot hbracket =>
      have hpasses : ∀ c ∈ table, (!(c == '.' || c == '[')) = true := by
        intro c hc
        have hc' : c ≠ '.' := fun heq => hdot (heq ▸ hc)
        have hc'' : c ≠ '[' := fun heq => hbracket (heq ▸ hc)
        simp [hc', hc'']
      have hstops : (!(mark == '.' || mark == '[')) = false := by
        rcases hmark with rfl | rfl
        · rfl
        · rfl
      have hquote : ∀ inner, table ++ mark :: rest = '\'' :: inner → False := by
        intro inner heq
        cases table with
        | nil =>
            rcases hmark with rfl | rfl
            · cases heq
            · cases heq
        | cons c table => exact hplain.unquoted (congrArg List.head? heq)
      rw [readTable?]
      · simp only [List.takeWhile_append_of_pos hpasses, List.dropWhile_append_of_pos hpasses,
          List.takeWhile_cons, List.dropWhile_cons, hstops]
        simp [hplain.trimmed]
      · exact hquote

end WritesTable

namespace WritesColumn

theorem exists_cons (h : WritesColumn column text) :
    ∃ mark rest, text = mark :: rest ∧ (mark = '.' ∨ mark = '[') := by
  cases h with
  | quoted => exact ⟨_, _, rfl, Or.inl rfl⟩
  | plain => exact ⟨_, _, rfl, Or.inl rfl⟩
  | bracketed => exact ⟨_, _, rfl, Or.inr rfl⟩

theorem not_allBlank (h : WritesColumn column text) : ¬ allBlank text = true := by
  obtain ⟨mark, rest, rfl, rfl | rfl⟩ := h.exists_cons
  · simp [allBlank, show isBlank '.' = false by decide]
  · simp [allBlank, show isBlank '[' = false by decide]

theorem trimEnd_eq (h : WritesColumn column text) : trimEnd text = text := by
  cases h with
  | quoted => exact trimEnd_cons rfl (trimEnd_of_trim (trim_quoteName column))
  | plain hplain => exact trimEnd_cons rfl (trimEnd_of_trim hplain.trimmed)
  | bracketed =>
      exact trimEnd_cons rfl (trimEnd_append_of_not_allBlank (by decide) (double ']' column))

/-- A column is read to its end. -/
theorem readColumn?_eq (h : WritesColumn column text) : readColumn? text = some column := by
  cases h with
  | quoted =>
      simp only [readColumn?, trim_quoteName]
      rw [quoteName]
      simp only [readUntil?_double (show ([] : List Char).head? ≠ some '\'' by simp)]
      rfl
  | plain hplain =>
      simp only [readColumn?, hplain.trimmed]
      split
      · exact absurd rfl hplain.unquoted
      · rfl
  | bracketed =>
      have hkept : trimEnd (double ']' column ++ [']']) = double ']' column ++ [']'] :=
        trimEnd_append_of_not_allBlank (by decide) _
      simp only [readColumn?, hkept]
      rw [if_pos List.getLast?_concat, List.dropLast_concat, halve_double]

end WritesColumn

/-! ## References -/

/-- However a reference is written, its two names are read. -/
theorem decompose?_append {table column : String} {first second : List Char}
    (htable : WritesTable table.toList first) (hcolumn : WritesColumn column.toList second)
    (hne : table ≠ "") (hne' : column ≠ "") :
    decompose? (String.ofList (first ++ second)) = some (table, column) := by
  have hkept : trim (first ++ second) = first ++ second :=
    trim_append htable.trimStart_eq (htable.ne_nil (by simpa using hne)) hcolumn.trimEnd_eq
      hcolumn.not_allBlank
  obtain ⟨mark, rest, hsecond, hmark⟩ := hcolumn.exists_cons
  have hread := htable.readTable?_append hmark rest
  rw [← hsecond] at hread
  rw [decompose?, String.toList_ofList, hkept, hread]
  simp [hcolumn.readColumn?_eq, hne, hne']

theorem encode_eq (table column : String) :
    encode table column =
      String.ofList (quoteName table.toList ++ '.' :: quoteName column.toList) := rfl

theorem decompose?_encode {table column : String} (hne : table ≠ "") (hne' : column ≠ "") :
    decompose? (encode table column) = some (table, column) := by
  rw [encode_eq]
  exact decompose?_append .quoted .quoted hne hne'

/-- What is read has two names. -/
theorem ne_empty_of_decompose? {reference table column : String}
    (h : decompose? reference = some (table, column)) : table ≠ "" ∧ column ≠ "" := by
  rw [decompose?] at h
  split at h
  · cases h
  · split at h
    · cases h
    · split at h
      · cases h
      · next hnames =>
          cases h
          rw [Bool.or_eq_true, not_or, List.isEmpty_iff, List.isEmpty_iff] at hnames
          exact ⟨by simpa using hnames.1, by simpa using hnames.2⟩

/-- Two names are read from every way to write them, one of which has quotes around both; and
what is read from any text can be written in that way and read again. -/
theorem decompose?_forms (table column : String) :
    (table ≠ "" → column ≠ "" → ∀ first second,
      WritesTable table.toList first → WritesColumn column.toList second →
        decompose? (String.ofList (first ++ second)) = some (table, column))
    ∧ encode table column =
      String.ofList (quoteName table.toList ++ '.' :: quoteName column.toList)
    ∧ ∀ reference, decompose? reference = some (table, column) →
      table ≠ "" ∧ column ≠ "" ∧ decompose? (encode table column) = some (table, column) := by
  refine ⟨fun hne hne' first second htable hcolumn =>
    decompose?_append htable hcolumn hne hne', encode_eq table column, fun reference h => ?_⟩
  obtain ⟨hne, hne'⟩ := ne_empty_of_decompose? h
  exact ⟨hne, hne', decompose?_encode hne hne'⟩

/-- A table with a dot and a quote in it, and a column with a bracket. -/
theorem decompose?_forms_withMarks :
    WritesTable "a'b.c".toList "'a''b.c'".toList
    ∧ WritesColumn "d]e".toList "[d]]e]".toList
    ∧ decompose? (String.ofList ("'a''b.c'".toList ++ "[d]]e]".toList)) = some ("a'b.c", "d]e")
    ∧ decompose? " 'a''b.c' . d]e " = some ("a'b.c", "d]e")
    ∧ decompose? (encode "a'b.c" "d]e") = some ("a'b.c", "d]e") := by
  have htable : WritesTable "a'b.c".toList "'a''b.c'".toList := by
    have hquoted : "'a''b.c'".toList = quoteName "a'b.c".toList := by decide +kernel
    rw [hquoted]
    exact .quoted
  have hcolumn : WritesColumn "d]e".toList "[d]]e]".toList := by
    have hbracketed : "[d]]e]".toList = '[' :: (double ']' "d]e".toList ++ [']']) := by
      decide +kernel
    rw [hbracketed]
    exact .bracketed
  have hread : decompose? " 'a''b.c' . d]e " = some ("a'b.c", "d]e") := by decide +kernel
  obtain ⟨hforms, -, hback⟩ := decompose?_forms "a'b.c" "d]e"
  exact ⟨htable, hcolumn, hforms (by decide) (by decide) _ _ htable hcolumn, hread,
    (hback _ hread).2.2⟩

end Tabular.Definition.ColumnName
