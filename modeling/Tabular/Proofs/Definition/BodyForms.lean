import Tabular.Proofs.Definition.Body
import Tabular.Proofs.Definition.Forest
import Tabular.Proofs.Definition.PropertyBag
import Tabular.Proofs.Definition.Written

/-!
# A formula in one form or the other

A formula can be written below the line of its declaration, behind more tabs than a property
has there, or between two fences. In both forms the declaration gets the same text for a
value, and all else is read as if there were no formula: behind it the reader starts afresh.
Only a line that gives the declaration the same key again takes the text away, as it does
with any property.
-/

namespace Tabular.Definition

open Text

/-! ## A declaration in its text -/

/-- A definition with a declaration in it. -/
def declaring (before : List (List Char)) (depth : Nat) (kind : Kind) (text value : List Char)
    (below : List (List Char)) : String :=
  ofRawLines (before ++ declarationLine depth kind text value :: below)

/-- A definition in which a declaration can be written: what stands in front of its line and
behind it. -/
structure WrittenIn (before : List (List Char)) (depth : Nat) (kind : Kind)
    (text name : List Char) (rest : List (List Char)) : Prop where
  ne_document : kind ≠ .document
  spells : Spells text name
  unbroken : ∀ l ∈ before ++ rest, '\n' ∉ l
  /-- The line is no part of a value. -/
  read : (Reading.after 1 {} (linesIn before)).reads
    (Line.ofRaw (declarationLine depth kind text [])) = true

/-- A definition in which a formula can be declared: what stands in front of the line and
behind it. -/
structure DeclaredIn (before : List (List Char)) (depth : Nat) (kind : Kind)
    (text name : List Char) (rest : List (List Char)) : Prop where
  hasBody : kind.hasBody = true
  spells : Spells text name
  unbroken : ∀ l ∈ before ++ rest, '\n' ∉ l
  /-- The line is no part of a value. -/
  read : (Reading.after 1 {} (linesIn before)).reads
    (Line.ofRaw (declarationLine depth kind text [])) = true

/-- A line that ends a body below a declaration: it is no deeper, or it is one level deeper
and reads as a property. -/
def EndsBelow (depth : Nat) (rest : List (List Char)) : Prop :=
  ∀ l ∈ firstLine? (rest.map Line.ofRaw),
    l.depth ≤ depth ∨ l.depth = depth + 1 ∧ endsBody l.content = true

instance (depth : Nat) (rest : List (List Char)) : Decidable (EndsBelow depth rest) :=
  inferInstanceAs (Decidable (∀ l ∈ firstLine? _, _))

namespace WrittenIn

variable {before rest : List (List Char)} {depth : Nat} {kind : Kind} {text name : List Char}
  (h : WrittenIn before depth kind text name rest)

include h

/-- The entries of the definition, with anything behind the name and below the line. -/
theorem entries_declaring {value : List Char} {below : List (List Char)} (hfeed : '\n' ∉ value)
    (hbelow : ∀ l ∈ below, '\n' ∉ l) :
    entries (declaring before depth kind text value below) =
      entriesFrom 1 {} (linesIn before)
        ++ ((readLine (before.length + 1) (waiting before)
              ⟨depth, declarationText kind text (trimEnd value)⟩).2
          ++ entriesFrom (before.length + 2)
              (readLine (before.length + 1) (waiting before)
                ⟨depth, declarationText kind text (trimEnd value)⟩).1
              (below.map Line.ofRaw)) := by
  have hreads : (Reading.after 1 {} (linesIn before)).reads
      (Line.ofRaw (declarationLine depth kind text value)) = true := by
    rw [ofRaw_declarationLine h.ne_document h.spells,
      reads_declarationText h.ne_document h.spells depth _ _ (trimEnd []),
      ← ofRaw_declarationLine h.ne_document h.spells]
    exact h.read
  have hbreaks : ∀ l ∈ before ++ declarationLine depth kind text value :: below, '\n' ∉ l := by
    intro l hl
    rcases List.mem_append.mp hl with hl | hl
    · exact h.unbroken l (List.mem_append_left _ hl)
    · rcases List.mem_cons.mp hl with rfl | hl
      · exact not_mem_declarationLine h.spells hfeed depth kind
      · exact hbelow l hl
  rw [declaring, entries_read hbreaks (withoutMark_declarationLine h.ne_document depth text value)
    hreads, ofRaw_declarationLine h.ne_document h.spells]

theorem unbroken_rest : ∀ l ∈ rest, '\n' ∉ l := fun l hl =>
  h.unbroken l (List.mem_append_right _ hl)

/-- Without an equals sign, the declaration has no value. -/
theorem entries_bare :
    entries (declaring before depth kind text [] rest) =
      entriesFrom 1 {} (linesIn before)
        ++ (declarationHead (before.length + 1) depth kind name (waiting before)).entry none
          :: entriesFrom (before.length + 2) {} (rest.map Line.ofRaw) := by
  rw [h.entries_declaring List.not_mem_nil h.unbroken_rest, trimEnd_nil,
    readLine_bare h.ne_document h.spells]
  rfl

end WrittenIn

namespace DeclaredIn

variable {before rest : List (List Char)} {depth : Nat} {kind : Kind} {text name : List Char}
  (h : DeclaredIn before depth kind text name rest)

include h

theorem writtenIn : WrittenIn before depth kind text name rest := by
  refine ⟨?_, h.spells, h.unbroken, h.read⟩
  intro hkind
  have hbody := h.hasBody
  rw [hkind] at hbody
  cases hbody

section Body

variable {body : List (List Char)} (hbody : IsBody body)

include hbody

/-- With a formula below the line, the declaration has its text for a value. -/
theorem entries_bodyBelow {tabs : Nat} (htabs : depth + 1 < tabs) (hends : EndsBelow depth rest) :
    entries (declaring before depth kind text [' ', '='] (body.map (behindTabs tabs) ++ rest)) =
      entriesFrom 1 {} (linesIn before)
        ++ (declarationHead (before.length + 1) depth kind name (waiting before)).entry
            (some (bodyText body))
          :: entriesFrom (before.length + 2 + body.length) {} (rest.map Line.ofRaw) := by
  have hvalue : trimEnd [' ', '='] = [' ', '='] := by decide
  have hbelow : ∀ l ∈ body.map (behindTabs tabs) ++ rest, '\n' ∉ l := by
    intro l hl
    rcases List.mem_append.mp hl with hl | hl
    · exact hbody.not_mem_behindTabs tabs l hl
    · exact h.writtenIn.unbroken_rest l hl
  have hne : (body.map (behindTabs tabs)).map Line.ofRaw ≠ [] := by
    rw [Ne, List.map_eq_nil_iff, List.map_eq_nil_iff]
    exact hbody.ne_nil
  have hstops : ∀ l ∈ firstLine? (rest.map Line.ofRaw), continuesBody
      (declarationHead (before.length + 1) depth kind name (waiting before)) [] l = false := by
    intro l hl
    have hdepth : (declarationHead (before.length + 1) depth kind name (waiting before)).depth =
        depth := rfl
    rcases hends l hl with hle | ⟨hdeeper, hproperty⟩
    · exact continuesBody_of_le hle []
    · simp [continuesBody, hdepth, hdeeper, hproperty]
  rw [h.writtenIn.entries_declaring (by decide) hbelow, hvalue,
    readLine_equals h.writtenIn.ne_document h.spells _ _ _ h.hasBody, List.map_append,
    entriesFrom_body (continuesBody_behindTabs htabs body)
      (isBlank_getLast?_behindTabs hbody tabs) hne hstops,
    List.replicate_zero, List.append_nil, List.nil_append, List.nil_append,
    bodyValue_behindTabs hbody, List.length_map, List.length_map]

/-- With a formula between two fences, it has the same. -/
theorem entries_bodyFenced (tabs : Nat) {closing : List Char} (hclosing : trim closing = fence)
    (hfeed : '\n' ∉ closing) :
    entries (declaring before depth kind text (' ' :: '=' :: ' ' :: fence)
        (body.map (behindTabs tabs) ++ closing :: rest)) =
      entriesFrom 1 {} (linesIn before)
        ++ (declarationHead (before.length + 1) depth kind name (waiting before)).entry
            (some (bodyText body))
          :: entriesFrom (before.length + 2 + (body.length + 1)) {} (rest.map Line.ofRaw) := by
  have hvalue : trimEnd (' ' :: '=' :: ' ' :: fence) = ' ' :: '=' :: ' ' :: fence := by decide
  have hbelow : ∀ l ∈ body.map (behindTabs tabs) ++ closing :: rest, '\n' ∉ l := by
    intro l hl
    rcases List.mem_append.mp hl with hl | hl
    · exact hbody.not_mem_behindTabs tabs l hl
    · rcases List.mem_cons.mp hl with rfl | hl
      · exact hfeed
      · exact h.writtenIn.unbroken_rest l hl
  obtain ⟨front, hfront, hnothing⟩ := beforeEnd?_ofRaw_closing hclosing
  rw [h.writtenIn.entries_declaring (by decide) hbelow, hvalue,
    readLine_fence h.writtenIn.ne_document h.spells, List.map_append, List.map_cons,
    entriesFrom_betweenFences _ _ (beforeEnd?_behindTabs hbody tabs) hfront hnothing,
    fencedValue_behindTabs hbody, List.length_map, List.length_map, List.nil_append,
    Nat.add_assoc _ body.length 1]

end Body

end DeclaredIn

/-! ## The tree -/

/-- Where a line stands when others are put in below one. -/
def pushedBelow (line added : Nat) (l : Nat) : Nat := if line < l then l + added else l

/-- Another bag for the declaration of a line. -/
def bagOn (line : Nat) (bag : PropertyBag) (l : Nat) (b : PropertyBag) : PropertyBag :=
  if l = line then bag else b

/-- A definition with a formula in it, against the one without. -/
structure StoresBody (line : Nat) (kind : Kind) (name body : String) (added : Nat)
    (bare full : Document) : Prop where
  /-- The declaration has the formula under the key of its kind, unless a line below gives it
  that key; otherwise the trees are the same, only that lines further down stand as much
  further down as the formula has lines. -/
  stored : ∃ a ∈ bare.root.preorder, ∃ b ∈ full.root.preorder,
    (a.line = line ∧ a.kind = kind ∧ a.name = name)
      ∧ (b.line = line ∧ b.kind = kind ∧ b.name = name)
      ∧ b.properties.get? kind.valueKey =
        (if a.properties.hasExactly kind.valueKey then a.properties.get? kind.valueKey
          else some body)
      ∧ b.properties.entries.filter (·.1 != kind.valueKey) =
        a.properties.entries.filter (·.1 != kind.valueKey)
      ∧ full.root = bare.root.amend (pushedBelow line added) (bagOn line b.properties)
  reported : full.diagnostics = bare.diagnostics.map (Diagnostic.moved (pushedBelow line added))

section Tree

variable {before later : List Entry} {line depth added : Nat} {kind : Kind} {name : String}
  {description : Option String} {body : String}

theorem moved_eq_self (h : ∀ e ∈ before, e.line < line) :
    before.map (Entry.moved (pushedBelow line added) fun depth => depth) = before := by
  have hsame : ∀ e ∈ before, e.moved (pushedBelow line added) (fun depth => depth) = e := by
    intro e he
    have := h e he
    rw [Entry.moved, pushedBelow, if_neg (by omega)]
  rw [List.map_congr_left hsame, List.map_id']

theorem moved_eq_shift (h : ∀ e ∈ later, line < e.line) :
    later.map (Entry.moved (pushedBelow line added) fun depth => depth) =
      later.map (Entry.shift added) := by
  refine List.map_congr_left fun e he => ?_
  rw [Entry.moved, pushedBelow, if_pos (h e he), Entry.shift]

/-- What a declaration has by its own line comes first in its bag, and its value comes last
of that. -/
theorem given_bagAbove (kind : Kind) (description : Option String) (body : String)
    (depth : Nat) (below : List (Nat × Piece)) :
    PropertyBag.Given kind.valueKey body (bagAbove kind description none depth below)
      (bagAbove kind description (some body) depth below) := by
  have hkey : "description" ≠ kind.valueKey := by
    cases kind <;> decide
  refine ⟨(description.map (("description", ·))).toList, insideOf depth below,
    fun e he => ?_, ?_, ?_⟩
  · cases description with
    | none => cases he
    | some text =>
        rw [List.mem_singleton.mp he]
        exact hkey
  · rw [bagAbove, ownProperties, Option.map_none, Option.toList_none, List.append_nil]
  · rw [bagAbove, ownProperties, Option.map_some, Option.toList_some, List.append_assoc]
    rfl

/-- A declaration is in the tree, with what the entries right below it say. -/
theorem mem_preorder_documentOf (before later : List Entry) (line depth : Nat) (kind : Kind)
    (name : String) (description value : Option String) :
    ∃ children, Node.mk kind name line
        (bagAbove kind description value depth (pieces later)) children
      ∈ (documentOf (before
          ++ ⟨line, depth, .declaration kind name description value⟩ :: later)).preorder := by
  have hforest : ∃ children rest,
      forest (⟨line, depth, .declaration kind name description value⟩ :: later) =
        .mk kind name line (bagAbove kind description value depth (pieces later)) children
          :: rest := ⟨_, _, rfl⟩
  obtain ⟨children, rest, hforest⟩ := hforest
  refine ⟨children, ?_⟩
  rw [documentOf, Node.preorder]
  refine List.mem_cons_of_mem _ (mem_preorderAll_forest_append ?_ before)
  rw [hforest, Node.preorderAll, Node.preorder]
  exact List.mem_cons_self

theorem pieces_append_cons (before : List Entry) (e : Entry) (later : List Entry) :
    pieces (before ++ e :: later) = before.foldr addEntry (addEntry e (pieces later)) := by
  rw [pieces, List.foldr_append]
  rfl

/-- Only the bag of a declaration knows its value. -/
theorem pieces_withValue (hbefore : ∀ e ∈ before, e.line < line)
    (hlater : ∀ e ∈ later, line < e.line) (value : Option String) :
    pieces (before ++ ⟨line, depth, .declaration kind name description value⟩
        :: later.map (Entry.shift added)) =
      amendPieces (pushedBelow line added) (fun depth => depth)
        (bagOn line (bagAbove kind description value depth (pieces later)))
        (pieces (before ++ ⟨line, depth, .declaration kind name description none⟩ :: later)) := by
  -- the entries in front and behind stand on other lines, so their bags stay
  have hother : ∀ bag {l : Nat}, l ≠ line → ∀ b, bagOn line bag l b = b :=
    fun bag _ h b => if_neg h
  have hbelow : ∀ bag, pieces (later.map (Entry.shift added)) =
      amendPieces (pushedBelow line added) (fun depth => depth) (bagOn line bag)
        (pieces later) := by
    intro bag
    rw [← moved_eq_shift hlater]
    exact pieces_moved (fun _ _ => Iff.rfl) fun e he => hother bag (Nat.ne_of_gt (hlater e he))
  have habove : ∀ bag below,
      before.foldr addEntry
          (amendPieces (pushedBelow line added) (fun depth => depth) (bagOn line bag) below) =
        amendPieces (pushedBelow line added) (fun depth => depth) (bagOn line bag)
          (before.foldr addEntry below) := by
    intro bag below
    rw [← foldr_addEntry_moved (fun _ _ => Iff.rfl)
      (fun e he => hother bag (Nat.ne_of_lt (hbefore e he))), moved_eq_self hbefore]
  rw [pieces_append_cons, pieces_append_cons, ← habove]
  refine congrArg (before.foldr addEntry) ?_
  rw [hbelow]
  exact addEntry_amend_declaration (fun _ _ => Iff.rfl) (if_neg (Nat.lt_irrefl line)) rfl
    (if_pos rfl)

/-- So the tree has the value where it had none, and is the same elsewhere. -/
theorem storesBody_of_entries {bare full : String} (hline : 0 < line)
    (hbefore : ∀ e ∈ before, e.line < line) (hlater : ∀ e ∈ later, line < e.line)
    (hbare : entries bare =
      before ++ ⟨line, depth, .declaration kind name description none⟩ :: later)
    (hfull : entries full =
      before ++ ⟨line, depth, .declaration kind name description (some body)⟩
        :: later.map (Entry.shift added)) (file : String) :
    StoresBody line kind name body added (parse bare file) (parse full file) := by
  have hpieces : pieces (entries full) =
      amendPieces (pushedBelow line added) (fun depth => depth)
        (bagOn line (bagAbove kind description (some body) depth (pieces later)))
        (pieces (entries bare)) := by
    rw [hbare, hfull]
    exact pieces_withValue hbefore hlater (some body)
  have hroot := documentOf_amend hpieces (if_neg (Nat.not_lt_zero line))
    fun bag => if_neg (Nat.ne_of_lt hline)
  have hreports : (entries full).filterMap (·.diagnostic? file) =
      ((entries bare).filterMap (·.diagnostic? file)).map
        (Diagnostic.moved (pushedBelow line added)) := by
    have hmoved := filterMap_diagnostic?_moved (pushedBelow line added) (fun depth => depth) file
      (before ++ later)
    rw [List.map_append, moved_eq_self hbefore, moved_eq_shift hlater] at hmoved
    rw [hbare, hfull, List.filterMap_append, List.filterMap_cons_none rfl,
      List.filterMap_append, List.filterMap_cons_none rfl, ← List.filterMap_append, hmoved,
      List.filterMap_append]
  obtain ⟨children, ha⟩ :=
    mem_preorder_documentOf before later line depth kind name description none
  rw [← hbare] at ha
  have hgiven := given_bagAbove kind description body depth (pieces later)
  have hb : Node.mk kind name line (bagAbove kind description (some body) depth (pieces later))
      (Node.amendAll (pushedBelow line added)
        (bagOn line (bagAbove kind description (some body) depth (pieces later))) children)
      ∈ (documentOf (entries full)).preorder := by
    rw [hroot, Node.preorder_amend]
    refine List.mem_map.mpr ⟨_, ha, ?_⟩
    rw [Node.amend, pushedBelow, if_neg (Nat.lt_irrefl line), bagOn, if_pos rfl]
  exact ⟨⟨_, ha, _, hb, ⟨rfl, rfl, rfl⟩, ⟨rfl, rfl, rfl⟩, hgiven.get?_eq,
    hgiven.filter_entries, hroot⟩, hreports⟩

end Tree

/-- A formula below the line of its declaration, behind any tabs that are enough, and the same
formula between two fences, behind any tabs, are stored as the same text, and what follows is
read as it is without the formula. -/
theorem storesBody_forms {before rest body : List (List Char)} {depth : Nat} {kind : Kind}
    {text name : List Char} (h : DeclaredIn before depth kind text name rest)
    (hbody : IsBody body) (file : String) :
    (∀ tabs, depth + 1 < tabs → EndsBelow depth rest →
      StoresBody (before.length + 1) kind (String.ofList name) (bodyText body) body.length
        (parse (declaring before depth kind text [] rest) file)
        (parse (declaring before depth kind text [' ', '=']
          (body.map (behindTabs tabs) ++ rest)) file))
    ∧ ∀ tabs closing, trim closing = fence → '\n' ∉ closing →
      StoresBody (before.length + 1) kind (String.ofList name) (bodyText body) (body.length + 1)
        (parse (declaring before depth kind text [] rest) file)
        (parse (declaring before depth kind text (' ' :: '=' :: ' ' :: fence)
          (body.map (behindTabs tabs) ++ closing :: rest)) file) := by
  have hbefore : ∀ e ∈ entriesFrom 1 {} (linesIn before), e.line < before.length + 1 := by
    intro e he
    have hline := line_of_mem_entriesFrom he
    rw [length_linesIn] at hline
    omega
  have hlater : ∀ e ∈ entriesFrom (before.length + 2) {} (rest.map Line.ofRaw),
      before.length + 1 < e.line := fun e he => (line_of_mem_entriesFrom he).1
  refine ⟨fun tabs htabs hends => ?_, fun tabs closing hclosing hfeed => ?_⟩
  · refine storesBody_of_entries (Nat.succ_pos _) hbefore hlater h.writtenIn.entries_bare ?_ file
    rw [h.entries_bodyBelow hbody htabs hends]
    exact congrArg (_ ++ _ :: ·) (entriesFrom_shift body.length (before.length + 2) {} _)
  · refine storesBody_of_entries (Nat.succ_pos _) hbefore hlater h.writtenIn.entries_bare ?_ file
    rw [h.entries_bodyFenced hbody tabs hclosing hfeed]
    exact congrArg (_ ++ _ :: ·) (entriesFrom_shift (body.length + 1) (before.length + 2) {} _)

/-- A formula whose lines read as a property and as a flag. -/
theorem storesBody_forms_likeProperties :
    DeclaredIn ["table T".toList] 1 .measure (quoteName "A B".toList) "A B".toList
        ["\t\tisHidden".toList, []]
      ∧ IsBody ["x: 1".toList, [], "isKey".toList]
      ∧ EndsBelow 1 ["\t\tisHidden".toList, []]
      ∧ StoresBody 2 .measure "A B" "x: 1\n\nisKey" 3
        (parse "table T\n\tmeasure 'A B'\n\t\tisHidden\n" "model")
        (parse "table T\n\tmeasure 'A B' =\n\t\t\tx: 1\n\n\t\t\tisKey\n\t\tisHidden\n" "model")
      ∧ StoresBody 2 .measure "A B" "x: 1\n\nisKey" 4
        (parse "table T\n\tmeasure 'A B'\n\t\tisHidden\n" "model")
        (parse "table T\n\tmeasure 'A B' = ```\nx: 1\n\nisKey\n```\n\t\tisHidden\n" "model") := by
  have hdeclared : DeclaredIn ["table T".toList] 1 .measure (quoteName "A B".toList)
      "A B".toList ["\t\tisHidden".toList, []] :=
    ⟨rfl, spells_quoteName (by decide) (by decide), by decide, by decide +kernel⟩
  have hbody : IsBody ["x: 1".toList, [], "isKey".toList] :=
    ⟨by decide, ⟨_, rfl, by decide⟩, ⟨_, rfl, by decide⟩, ⟨_, List.mem_cons_self, by decide⟩,
      by decide⟩
  have hends : EndsBelow 1 ["\t\tisHidden".toList, []] := by decide +kernel
  exact ⟨hdeclared, hbody, hends,
    (storesBody_forms hdeclared hbody "model").1 3 (by decide) hends,
    (storesBody_forms hdeclared hbody "model").2 0 fence (by decide) (by decide)⟩

/-- The line behind the formula may give the declaration the same key again. -/
theorem not_stored_givenAgain :
    DeclaredIn [] 0 .measure "M".toList "M".toList ["\texpression: other".toList, []]
      ∧ IsBody ["SUM(x)".toList]
      ∧ EndsBelow 0 ["\texpression: other".toList, []]
      ∧ declaring [] 0 .measure "M".toList [' ', '=']
          (["SUM(x)".toList].map (behindTabs 2) ++ ["\texpression: other".toList, []]) =
        "measure M =\n\t\tSUM(x)\n\texpression: other\n"
      ∧ (parse "measure M =\n\t\tSUM(x)\n\texpression: other\n" "").root.children.map
          (·.properties.get? Kind.measure.valueKey) ≠ [some (bodyText ["SUM(x)".toList])] := by
  have hspells : Spells "M".toList "M".toList :=
    spells_self (by decide) (by decide) (by decide) (by decide) (by decide) (by decide)
  exact ⟨⟨rfl, hspells, by decide, by decide +kernel⟩,
    ⟨by decide, ⟨_, rfl, by decide⟩, ⟨_, rfl, by decide⟩, ⟨_, List.mem_cons_self, by decide⟩,
      by decide⟩,
    by decide +kernel, by decide +kernel, by decide +kernel⟩

end Tabular.Definition
