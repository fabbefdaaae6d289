import Tabular.Proofs.Definition.BodyForms
import Tabular.Proofs.Definition.WellNested

/-!
# A declaration with a quoted name

A name may hold what has a meaning of its own elsewhere on the line: equals signs, colons,
keywords, quotes, blanks at its ends. Between quotes, with its own quotes doubled, it is read
back as it is, whatever it holds, and the value behind it is found at the equals sign that
follows. The line alone decides the name; the value is what stands on the line as long as no
deeper line comes next, which could go on with it or give the declaration its key again.
-/

namespace Tabular.Definition

open Text

/-- No deeper line comes next: the first one that is not blank is as shallow as the
declaration, or shallower. -/
def NothingInside (depth : Nat) (rest : List (List Char)) : Prop :=
  ∀ l ∈ firstLine? (rest.map Line.ofRaw), l.depth ≤ depth

instance (depth : Nat) (rest : List (List Char)) : Decidable (NothingInside depth rest) :=
  inferInstanceAs (Decidable (∀ l ∈ firstLine? _, _))

/-- The one declaration of a line. -/
def Document.DeclaresAt (d : Document) (line : Nat) (n : Node) : Prop :=
  ∀ m, m ∈ d.root.preorder ∧ m.line = line ↔ m = n

theorem runBelow_eq_nil {depth : Nat} {es : List Entry} (h : ∀ e ∈ es.head?, e.depth ≤ depth) :
    runBelow depth es = [] := by
  cases es with
  | nil => rfl
  | cons e rest => exact List.takeWhile_cons_of_neg (by simpa using h e rfl)

/-- With nothing inside, a declaration has the value of its own line. -/
theorem get?_bagAbove (kind : Kind) (description : Option String) (value : String) {depth : Nat}
    {es : List Entry} (h : runBelow depth es = []) :
    (bagAbove kind description (some value) depth (pieces es)).get? kind.valueKey =
      some value := by
  have hinside : insideOf depth (pieces es) = [] := by
    rw [insideOf, (pieces_cut depth es).1, h]
    rfl
  rw [bagAbove, hinside, List.append_nil]
  exact PropertyBag.get?_ofList_concat _ _ _

/-- A declaration whose value is complete stands in the tree, with what is inside it, and there
is no other on its line. -/
theorem exists_declaresAt_of_entries {definition : String} {before later : List Entry}
    {number depth : Nat} {kind : Kind} {name : List Char} {description : List String}
    {value : Option String}
    (h : entries definition =
      before ++ (declarationHead number depth kind name description).entry value :: later)
    (file : String) :
    ∃ n, (parse definition file).DeclaresAt number n
      ∧ n.kind = kind ∧ n.name = String.ofList name
      ∧ ∃ about, n.properties = bagAbove kind about value depth (pieces later) := by
  obtain ⟨children, hmem⟩ := mem_preorder_documentOf before later number depth kind
    (String.ofList name)
    (if description.isEmpty then none else some (String.intercalate "\n" description)) value
  have hroot : (parse definition file).root =
      documentOf (before ++ (declarationHead number depth kind name description).entry value
        :: later) := by
    rw [parse, h]
  have hn := hroot ▸ hmem
  refine ⟨_, fun m => ⟨fun hm => eq_of_mem_preorder hm.1 hn hm.2, ?_⟩, rfl, rfl, _, rfl⟩
  rintro rfl
  exact ⟨hn, rfl⟩

namespace WrittenIn

variable {before rest : List (List Char)} {depth : Nat} {kind : Kind} {text name : List Char}
  (h : WrittenIn before depth kind text name rest)

include h

/-- With a value on the line and nothing inside, the declaration has this value, and what
follows is read from the start. -/
theorem entries_value {v : List Char} (hfeed : '\n' ∉ v) (hkept : ¬ allBlank v = true)
    (hunfenced : afterStart? fence (trim v) = none) (hinside : NothingInside depth rest) :
    entries (declaring before depth kind text (' ' :: '=' :: ' ' :: v) rest) =
      entriesFrom 1 {} (linesIn before)
        ++ (declarationHead (before.length + 1) depth kind name (waiting before)).entry
            (some (String.ofList (trim v)))
          :: entriesFrom (before.length + 2) {} (rest.map Line.ofRaw) := by
  have hvalue : trimEnd (' ' :: '=' :: ' ' :: v) = ' ' :: '=' :: ' ' :: trimEnd v :=
    trimEnd_append_of_not_allBlank hkept [' ', '=', ' ']
  -- no line that follows goes on with the value
  have hends : ∀ l ∈ firstLine? (rest.map Line.ofRaw), continuesBody
      (declarationHead (before.length + 1) depth kind name (waiting before)) (trim v) l =
        false := fun l hl => continuesBody_of_le (hinside l hl) (trim v)
  have hcomplete : bodyValue (trim v) [] = some (String.ofList (trim v)) := by
    obtain ⟨c, rest, htrim⟩ := List.exists_cons_of_ne_nil (mt trim_eq_nil_iff.mp hkept)
    rw [htrim]
    rfl
  rw [h.entries_declaring (by simpa using hfeed) h.unbroken_rest, hvalue,
    readLine_value h.ne_document h.spells _ _ _ hkept hunfenced]
  cases kind.hasBody with
  | true =>
      rw [if_pos rfl, entriesFrom_bodyEnd hends, hcomplete]
      rfl
  | false => rfl

/-- The line declares something of its kind under its name. -/
theorem exists_declaresAt_bare (file : String) :
    ∃ n, (parse (declaring before depth kind text [] rest) file).DeclaresAt (before.length + 1) n
      ∧ n.kind = kind ∧ n.name = String.ofList name := by
  obtain ⟨n, hline, hkind, hname, -⟩ := exists_declaresAt_of_entries h.entries_bare file
  exact ⟨n, hline, hkind, hname⟩

/-- With a value on the line and nothing inside, it also has this value. -/
theorem exists_declaresAt_value {v : List Char} (hfeed : '\n' ∉ v)
    (hkept : ¬ allBlank v = true) (hunfenced : afterStart? fence (trim v) = none)
    (hinside : NothingInside depth rest) (file : String) :
    ∃ n, (parse (declaring before depth kind text (' ' :: '=' :: ' ' :: v) rest)
        file).DeclaresAt (before.length + 1) n
      ∧ n.kind = kind ∧ n.name = String.ofList name
      ∧ n.properties.get? kind.valueKey = some (String.ofList (trim v)) := by
  have hnone : runBelow depth (entriesFrom (before.length + 2) {} (rest.map Line.ofRaw)) = [] := by
    refine runBelow_eq_nil fun e he => ?_
    obtain ⟨l, hl, hdepth⟩ := depth_of_head?_entriesFrom (before.length + 2) _ e he
    rw [← hdepth]
    exact hinside l hl
  obtain ⟨n, hline, hkind, hname, about, hbag⟩ :=
    exists_declaresAt_of_entries (h.entries_value hfeed hkept hunfenced hinside) file
  refine ⟨n, hline, hkind, hname, ?_⟩
  rw [hbag]
  exact get?_bagAbove kind about _ hnone

end WrittenIn

/-- Whatever a name holds, between quotes it is declared as it is, at any depth and in any
definition where the line is read by itself. A value behind it is stored under the key of the
kind, without the blanks around it, if it starts with no fence and no deeper line comes
next. -/
theorem declared_quoteName {before rest : List (List Char)} {depth : Nat} {kind : Kind}
    {name : List Char} (hkind : kind ≠ .document) (hnamed : name ≠ []) (hfeed : '\n' ∉ name)
    (hunbroken : ∀ l ∈ before ++ rest, '\n' ∉ l)
    (hread : (Reading.after 1 {} (linesIn before)).reads
      (Line.ofRaw (declarationLine depth kind (quoteName name) [])) = true) (file : String) :
    (∃ n, (parse (declaring before depth kind (quoteName name) [] rest) file).DeclaresAt
        (before.length + 1) n
      ∧ n.kind = kind ∧ n.name = String.ofList name)
    ∧ ∀ v, '\n' ∉ v → ¬ allBlank v = true → afterStart? fence (trim v) = none →
      NothingInside depth rest →
      ∃ n, (parse (declaring before depth kind (quoteName name) (' ' :: '=' :: ' ' :: v) rest)
          file).DeclaresAt (before.length + 1) n
        ∧ n.kind = kind ∧ n.name = String.ofList name
        ∧ n.properties.get? kind.valueKey = some (String.ofList (trim v)) := by
  have h : WrittenIn before depth kind (quoteName name) name rest :=
    ⟨hkind, spells_quoteName hnamed hfeed, hunbroken, hread⟩
  exact ⟨h.exists_declaresAt_bare file, fun v hv hkept hunfenced hinside =>
    h.exists_declaresAt_value hv hkept hunfenced hinside file⟩

/-- A name with blanks at its ends, an equals sign, a colon and quotes. -/
theorem declared_quoteName_withMarks :
    '\n' ∉ " a = 'b': c ".toList
      ∧ (Reading.after 1 {} (linesIn ["table T".toList])).reads
        (Line.ofRaw (declarationLine 1 .measure (quoteName " a = 'b': c ".toList) [])) = true
      ∧ NothingInside 1 [[], "\tcolumn C".toList]
      ∧ (∃ n, (parse "table T\n\tmeasure ' a = ''b'': c '\n\n\tcolumn C" "model").DeclaresAt 2 n
        ∧ n.kind = .measure ∧ n.name = " a = 'b': c ")
      ∧ ∃ n, (parse "table T\n\tmeasure ' a = ''b'': c ' =  'T'[x] = 1 \n\n\tcolumn C"
          "model").DeclaresAt 2 n
        ∧ n.kind = .measure ∧ n.name = " a = 'b': c "
        ∧ n.properties.get? "expression" = some "'T'[x] = 1" := by
  have hfeed : '\n' ∉ " a = 'b': c ".toList := by decide
  have hread : (Reading.after 1 {} (linesIn ["table T".toList])).reads
      (Line.ofRaw (declarationLine 1 .measure (quoteName " a = 'b': c ".toList) [])) = true := by
    decide +kernel
  have hinside : NothingInside 1 [[], "\tcolumn C".toList] := by decide +kernel
  have hlines : ∀ l ∈ ["table T".toList] ++ [[], "\tcolumn C".toList], '\n' ∉ l := by decide
  have h := declared_quoteName (by decide) (by decide) hfeed hlines hread "model"
  exact ⟨hfeed, hread, hinside, h.1,
    h.2 " 'T'[x] = 1 ".toList (by decide) (by decide) (by decide) hinside⟩

end Tabular.Definition
