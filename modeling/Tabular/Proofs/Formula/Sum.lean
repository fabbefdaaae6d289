import Tabular.Proofs.Formula.Answers
import Tabular.Proofs.Formula.Mentions

/-!
# What a sum of references refers to

The plainest formulas are sums of references, each written as a table with a name, as a
table alone or as a name alone. Any text may be a table or a name; only the mark that
closes it is doubled. The references of such a sum are those of its terms, each looked up
in the index by itself.

Names may hold quotes, brackets, comments and words that declare, and none of it is seen:
both readings of the formula go from the opening mark of a term to its closing mark. And
what stands in front of a bracket is a plus and a blank, or nothing, so that no word, no
parameter and no declaration is ever found there.
-/

namespace Tabular.Formula

open Ordered Text

/-- A reference as a term of a sum. -/
inductive Term where
  | qualified (table name : String)
  | table (name : String)
  | bare (name : String)
  deriving DecidableEq, Inhabited, Repr

namespace Term

/-- A text between two marks, with the closing one doubled inside. -/
def marked (opener closer : Char) (text : String) : List Char :=
  opener :: (double closer text.toList ++ [closer])

/-- A term as it is written. -/
def text : Term → List Char
  | .qualified owner name => marked '\'' '\'' owner ++ marked '[' ']' name
  | .table name => marked '\'' '\'' name
  | .bare name => marked '[' ']' name

/-- The text between two terms. -/
def plus : List Char := [' ', '+', ' ']

/-- The text of a sum. -/
def sumText (ts : List Term) : List Char := plus.intercalate (ts.map text)

/-- The formula that adds up some terms. -/
def sum (ts : List Term) : String := String.ofList (sumText ts)

/-- The name that a term gives, as it is spelled there. -/
def rawName : Term → String
  | .qualified _ name | .table name | .bare name => name

/-- The table that a term names, in the spelling of an index. -/
def table? (index : Index) : Term → Option String
  | .qualified owner _ => some (index.spelling owner)
  | .table name => some (index.spelling name)
  | .bare _ => none

/-- A measure that a term means. A name alone means the measures of all its owners, or one
without a table when it has no owner at all. -/
inductive MeansMeasure (index : Index) : Term → ObjectRef → Prop
  | qualified {owner name : String} {r : ObjectRef}
      (found : index.measures.get? owner name = some r) :
      MeansMeasure index (.qualified owner name) r
  | owned {name : String} {owners : SortedSet String}
      (owned : index.measures.ownersOf? name = some owners) {owner : String}
      (mem : owner ∈ owners) {r : ObjectRef}
      (found : index.measures.get? owner name = some r) : MeansMeasure index (.bare name) r
  | unresolved {name : String} (noMeasure : index.measures.ownersOf? name = none)
      (noColumn : index.columns.ownersOf? name = none) :
      MeansMeasure index (.bare name) (ObjectRef.unresolved name)

/-- A column that a term means: one where no measure is meant. -/
inductive MeansColumn (index : Index) : Term → ObjectRef → Prop
  | qualified {owner name : String} (noMeasure : index.measures.get? owner name = none)
      {r : ObjectRef} (found : index.columns.get? owner name = some r) :
      MeansColumn index (.qualified owner name) r
  | assumed {owner name : String} (noMeasure : index.measures.get? owner name = none)
      (noColumn : index.columns.get? owner name = none) :
      MeansColumn index (.qualified owner name) ⟨index.spelling owner, name⟩
  | owned {name : String} (noMeasure : index.measures.ownersOf? name = none)
      {owners : SortedSet String} (owned : index.columns.ownersOf? name = some owners)
      {owner : String} (mem : owner ∈ owners) {r : ObjectRef}
      (found : index.columns.get? owner name = some r) : MeansColumn index (.bare name) r

/-- The owners by which a name alone is answered. -/
def ownersUsed? (index : Index) (name : String) : Option (SortedSet String) :=
  (index.measures.ownersOf? name).or (index.columns.ownersOf? name)

/-! ## Reading a sum -/

/-- What a term is read as, behind some code. -/
def mention (lead : List Char) : Term → Mention
  | .qualified owner name => .qualified owner name
  | .table name => .table name
  | .bare name => .bracketed lead name

/-- What a term refers to by itself. -/
def references (index : Index) : Term → References
  | .qualified owner name => .ofQualified index owner name
  | .table name => .ofTable index name
  | .bare name => .ofBare index name

/-- A text that does not go on a term in front of it is a blank or nothing. -/
theorem standsApart_of_head? {rest : List Char}
    (h : rest.head? = none ∨ rest.head? = some ' ') : StandsApart rest := by
  rcases h with h | h
  · exact ⟨by simp [h], by simp [h], by simp [h]⟩
  · exact ⟨by simp [h], by simp [h], by simp [h]⟩

variable {rest : List Char}

/-- A term is code to its end. -/
theorem codeOf_text (h : StandsApart rest) (t : Term) :
    codeOf (roles .code none (t.text ++ rest)) =
      t.text ++ codeOf (roles .code none rest) := by
  have hquote : rest.head?.or none ≠ some '\'' := by
    rw [Option.or_none]
    exact h.quote
  have hclosing : rest.head?.or none ≠ some ']' := by
    rw [Option.or_none]
    exact h.closing
  cases t with
  | qualified owner name =>
      simp only [text, marked, List.cons_append, List.append_assoc, List.nil_append]
      rw [codeOf_quoted (by simp), codeOf_bracketed hclosing]
  | table name =>
      simp only [text, marked, List.cons_append, List.append_assoc, List.nil_append]
      rw [codeOf_quoted hquote]
  | bare name =>
      simp only [text, marked, List.cons_append, List.append_assoc, List.nil_append]
      rw [codeOf_bracketed hclosing]

/-- A term is read as one mention. -/
theorem mentionsAfter_text (h : StandsApart rest) (lead : List Char) (t : Term) :
    mentionsAfter lead (t.text ++ rest) = t.mention lead :: mentionsAfter [] rest := by
  cases t with
  | qualified owner name =>
      simp only [text, marked, List.cons_append, List.append_assoc, List.nil_append]
      rw [mentionsAfter_qualified (readUntil?_double (by simp) owner.toList)
        (readUntil?_double h.closing name.toList), String.ofList_toList, String.ofList_toList,
        mention]
  | table name =>
      simp only [text, marked, List.cons_append, List.append_assoc, List.nil_append]
      rw [mentionsAfter_table (readUntil?_double h.quote name.toList) h.bracket,
        String.ofList_toList, mention]
  | bare name =>
      simp only [text, marked, List.cons_append, List.append_assoc, List.nil_append]
      rw [mentionsAfter_bracketed (readUntil?_double h.closing name.toList),
        String.ofList_toList, mention]

theorem standsApart_nil : StandsApart [] := standsApart_of_head? (Or.inl rfl)

theorem standsApart_plus (rest : List Char) : StandsApart (plus ++ rest) :=
  standsApart_of_head? (Or.inr rfl)

theorem isPlainCode_of_mem_plus {c : Char} (h : c ∈ plus) : IsPlainCode c := by
  rcases List.mem_cons.mp h with rfl | h
  · exact ⟨by decide, by decide, by decide⟩
  · rcases List.mem_cons.mp h with rfl | h
    · exact ⟨by decide, by decide, by decide⟩
    · rw [List.mem_singleton.mp h]
      exact ⟨by decide, by decide, by decide⟩

theorem codeOf_plus (rest : List Char) :
    codeOf (roles .code none (plus ++ rest)) = plus ++ codeOf (roles .code none rest) := by
  simp [plus, roles, Place.step]

theorem sumText_singleton (t : Term) : sumText [t] = t.text :=
  List.append_nil t.text

theorem sumText_cons_cons (t u : Term) (ts : List Term) :
    sumText (t :: u :: ts) = t.text ++ (plus ++ sumText (u :: ts)) := rfl

/-- A sum is code to its end. -/
theorem codeOnly_sumText (ts : List Term) : codeOnly (sumText ts) = sumText ts := by
  rw [codeOnly_eq]
  induction ts with
  | nil => rfl
  | cons t ts ih =>
      cases ts with
      | nil =>
          have h := codeOf_text standsApart_nil t
          rw [List.append_nil] at h
          rw [sumText_singleton, h]
          exact List.append_nil t.text
      | cons u ts =>
          rw [sumText_cons_cons, codeOf_text (standsApart_plus _), codeOf_plus, ih]

/-- A sum is read as its terms, one after the other. -/
theorem mentionsAfter_sumText (lead : List Char) (ts : List Term) :
    mentionsAfter lead (sumText ts) =
      (ts.take 1).map (mention lead) ++ (ts.drop 1).map (mention plus) := by
  induction ts generalizing lead with
  | nil => exact mentionsAfter_nil lead
  | cons t ts ih =>
      cases ts with
      | nil =>
          have h := mentionsAfter_text standsApart_nil lead t
          rwa [List.append_nil, mentionsAfter_nil, ← sumText_singleton] at h
      | cons u ts =>
          rw [sumText_cons_cons, mentionsAfter_text (standsApart_plus _),
            mentionsAfter_append_plain fun _ => isPlainCode_of_mem_plus, ih]
          rfl

/-- Neither a plus nor the beginning of a sum says anything about a name. -/
theorem ofMention_mention (index : Index) {lead : List Char} (h : lead = [] ∨ lead = plus)
    (t : Term) : References.ofMention index (t.mention lead) = t.references index := by
  cases t with
  | qualified owner name => rfl
  | table name => rfl
  | bare name =>
      have hword : touchingWord lead = "" := by
        rcases h with rfl | rfl
        · rfl
        · rfl
      have hdeclares : declaresName lead = false := by
        rcases h with rfl | rfl
        · decide
        · decide
      have hparameter : marksParameter lead = false := by
        rcases h with rfl | rfl
        · rfl
        · rfl
      simp [mention, References.ofMention, hword, hdeclares, hparameter, references]

/-- The references of a sum are those of its terms. -/
theorem map_ofMention_sum (index : Index) (ts : List Term) :
    (mentions (sum ts)).map (References.ofMention index) = ts.map (references index) := by
  have hfirst := List.map_congr_left (l := ts.take 1) fun t _ =>
    ofMention_mention index (Or.inl rfl) t
  have hmore := List.map_congr_left (l := ts.drop 1) fun t _ =>
    ofMention_mention index (Or.inr rfl) t
  rw [mentions, sum, String.toList_ofList, codeOnly_sumText, mentionsAfter_sumText,
    List.map_append, List.map_map, List.map_map]
  refine (congrArg₂ (· ++ ·) hfirst hmore).trans ?_
  rw [← List.map_append, List.take_append_drop]

theorem mem_resolve_sum {α : Type} [Ord α] [Std.TransOrd α] [Std.LawfulEqOrd α]
    {index : Index} {ts : List Term} (field : References → SortedSet α)
    (hunion : ∀ r s : References, field (r ∪ s) = field r ∪ field s)
    (hempty : field ∅ = ∅) (x : α) :
    x ∈ field (resolve index (sum ts)) ↔ ∃ t ∈ ts, x ∈ field (t.references index) := by
  have hmap : (∃ r ∈ (mentions (sum ts)).map (References.ofMention index), x ∈ field r) ↔
      ∃ r ∈ ts.map (references index), x ∈ field r := by
    rw [map_ofMention_sum]
  simp only [List.mem_map, exists_exists_and_eq_and] at hmap
  exact (References.mem_resolve field hunion hempty).trans hmap

/-! ## What one term refers to -/

variable {index : Index} {as : List Addition} {x : ObjectRef}

theorem mem_tables_references {t : Term} {x : String} :
    x ∈ (t.references index).tables ↔ t.table? index = some x := by
  cases t with
  | qualified owner name =>
      rw [references, References.tables_ofQualified, References.mem_one, table?,
        Option.some.injEq, eq_comm]
  | table name =>
      rw [references, References.ofTable, References.mem_one, table?, Option.some.injEq,
        eq_comm]
  | bare name =>
      rw [references, References.tables_ofBare]
      exact iff_of_false SortedSet.not_mem_empty (Option.some_ne_none x).symm

theorem mem_identifiers_references {t : Term} {x : String} :
    x ∈ (t.references index).identifiers ↔ t.rawName = x := by
  have hone : (t.references index).identifiers = References.one t.rawName := by
    cases t with
    | qualified owner name => exact References.identifiers_ofQualified index owner name
    | table name => rfl
    | bare name => exact References.identifiers_ofBare index name
  rw [hone, References.mem_one, eq_comm]

theorem mem_measures_references (h : index.FilledBy as) {t : Term} :
    x ∈ (t.references index).measures ↔ MeansMeasure index t x := by
  cases t with
  | qualified owner name =>
      rw [references, References.mem_measures_ofQualified h]
      constructor
      · exact MeansMeasure.qualified
      · rintro ⟨hfound⟩
        exact hfound
  | table name => exact iff_of_false SortedSet.not_mem_empty fun hmeans => by cases hmeans
  | bare name =>
      rw [references, References.mem_measures_ofBare h]
      constructor
      · rintro (⟨owners, howners, owner, howner, hfound⟩ | ⟨hmeasures, hcolumns, rfl⟩)
        · exact .owned howners howner hfound
        · exact .unresolved hmeasures hcolumns
      · intro hmeans
        cases hmeans with
        | owned howners howner hfound => exact Or.inl ⟨_, howners, _, howner, hfound⟩
        | unresolved hmeasures hcolumns => exact Or.inr ⟨hmeasures, hcolumns, rfl⟩

theorem mem_columns_references (h : index.FilledBy as) {t : Term} :
    x ∈ (t.references index).columns ↔ MeansColumn index t x := by
  cases t with
  | qualified owner name =>
      rw [references, References.mem_columns_ofQualified h]
      constructor
      · rintro ⟨hmeasure, hfound | ⟨hcolumn, rfl⟩⟩
        · exact .qualified hmeasure hfound
        · exact .assumed hmeasure hcolumn
      · intro hmeans
        cases hmeans with
        | qualified hmeasure hfound => exact ⟨hmeasure, Or.inl hfound⟩
        | assumed hmeasure hcolumn => exact ⟨hmeasure, Or.inr ⟨hcolumn, rfl⟩⟩
  | table name => exact iff_of_false SortedSet.not_mem_empty fun hmeans => by cases hmeans
  | bare name =>
      rw [references, References.mem_columns_ofBare h]
      constructor
      · rintro ⟨hmeasures, owners, howners, owner, howner, hfound⟩
        exact .owned hmeasures howners howner hfound
      · intro hmeans
        cases hmeans with
        | owned hmeasures howners howner hfound =>
            exact ⟨hmeasures, _, howners, _, howner, hfound⟩

/-- A condition on the name of a term that is a name alone. -/
theorem bare_eq_and_iff {name x : String} {p : String → Prop} :
    (bare name = bare x ∧ p x) ↔ x = name ∧ p name := by
  constructor
  · rintro ⟨heq, hp⟩
    cases heq
    exact ⟨rfl, hp⟩
  · rintro ⟨rfl, hp⟩
    exact ⟨rfl, hp⟩

/-- Only a name alone can be unresolved. -/
theorem mem_unresolved_references {t : Term} {x : String} :
    x ∈ (t.references index).unresolved ↔ t = .bare x ∧ ownersUsed? index x = none := by
  cases t with
  | qualified owner name =>
      rw [references, (References.undecided_ofQualified index owner name).1]
      exact iff_of_false SortedSet.not_mem_empty fun hx => Term.noConfusion hx.1
  | table name => exact iff_of_false SortedSet.not_mem_empty fun hx => Term.noConfusion hx.1
  | bare name =>
      rw [references, References.mem_unresolved_ofBare]
      exact (bare_eq_and_iff (p := fun n => ownersUsed? index n = none)).symm

/-- Only a name alone can be ambiguous. -/
theorem mem_ambiguous_references {t : Term} {x : String} :
    x ∈ (t.references index).ambiguous ↔
      t = .bare x ∧ ∃ owners, ownersUsed? index x = some owners ∧ 2 ≤ owners.size := by
  cases t with
  | qualified owner name =>
      rw [references, (References.undecided_ofQualified index owner name).2]
      exact iff_of_false SortedSet.not_mem_empty fun hx => Term.noConfusion hx.1
  | table name => exact iff_of_false SortedSet.not_mem_empty fun hx => Term.noConfusion hx.1
  | bare name =>
      rw [references, References.mem_ambiguous_ofBare]
      exact (bare_eq_and_iff (p := fun n =>
        ∃ owners, ownersUsed? index n = some owners ∧ 2 ≤ owners.size)).symm

end Term

/-! ## What a sum refers to -/

/-- References that answer the terms of a sum, each by itself, and say nothing else. -/
structure AnswersTerms (index : Index) (ts : List Term) (r : References) : Prop where
  tables : ∀ x, x ∈ r.tables ↔ ∃ t ∈ ts, t.table? index = some x
  measures : ∀ x, x ∈ r.measures ↔ ∃ t ∈ ts, t.MeansMeasure index x
  columns : ∀ x, x ∈ r.columns ↔ ∃ t ∈ ts, t.MeansColumn index x
  identifiers : ∀ x, x ∈ r.identifiers ↔ ∃ t ∈ ts, t.rawName = x
  unresolved : ∀ x, x ∈ r.unresolved ↔ .bare x ∈ ts ∧ Term.ownersUsed? index x = none
  ambiguous : ∀ x, x ∈ r.ambiguous ↔
    .bare x ∈ ts ∧ ∃ owners, Term.ownersUsed? index x = some owners ∧ 2 ≤ owners.size
  /-- The owners of a name all answer for it. -/
  owned : index.measures.OwnersHaveObjects ∧ index.columns.OwnersHaveObjects

/-- A condition on one term of its kind asks whether that term is there. -/
theorem exists_mem_eq_and {ts : List Term} {t : Term} {p : Prop} :
    (∃ u ∈ ts, u = t ∧ p) ↔ t ∈ ts ∧ p := by
  constructor
  · rintro ⟨u, hu, rfl, hp⟩
    exact ⟨hu, hp⟩
  · rintro ⟨ht, hp⟩
    exact ⟨t, ht, rfl, hp⟩

/-- A sum of references refers to what its terms refer to, in an index that is filled in
any way. -/
theorem resolve_sum (as : List Addition) (ts : List Term) :
    AnswersTerms (.ofAdditions as) ts (resolve (.ofAdditions as) (Term.sum ts)) := by
  have h := Index.filledBy_ofAdditions as
  refine ⟨fun x => ?_, fun x => ?_, fun x => ?_, fun x => ?_, fun x => ?_, fun x => ?_, ?_⟩
  · rw [Term.mem_resolve_sum References.tables (fun _ _ => rfl) rfl]
    simp only [Term.mem_tables_references]
  · rw [Term.mem_resolve_sum References.measures (fun _ _ => rfl) rfl]
    simp only [Term.mem_measures_references h]
  · rw [Term.mem_resolve_sum References.columns (fun _ _ => rfl) rfl]
    simp only [Term.mem_columns_references h]
  · rw [Term.mem_resolve_sum References.identifiers (fun _ _ => rfl) rfl]
    simp only [Term.mem_identifiers_references]
  · rw [Term.mem_resolve_sum References.unresolved (fun _ _ => rfl) rfl]
    simp only [Term.mem_unresolved_references]
    exact exists_mem_eq_and
  · rw [Term.mem_resolve_sum References.ambiguous (fun _ _ => rfl) rfl]
    simp only [Term.mem_ambiguous_references]
    exact exists_mem_eq_and
  · exact ⟨h.measures.ownersHaveObjects h.fold_spelling,
      h.columns.ownersHaveObjects h.fold_spelling⟩

end Tabular.Formula
