import Tabular.Definition.Entry
import Tabular.Proofs.Definition.Dedent

/-!
# Declarations as they are written

The line of a declaration is its keyword, a name, and possibly an equals sign with a value
behind it. The name may be any text with quotes around it, or stand there as it is if no
quote and no equals sign is in it. Either way the first equals sign outside of quotes is the
one behind the name.
-/

namespace Tabular.Definition

open Text

/-! ## Names -/

/-- A text that a name is written as. -/
structure Spells (text name : List Char) : Prop where
  /-- Without its quotes it is the name, and there is one. -/
  unquoted : unquote text = name
  named : name ≠ []
  /-- It starts and ends with no blank. -/
  trimmed : trim text = text
  /-- It does not start as the value of a property would. -/
  apart : text.head? ≠ some ':'
  /-- Of an equals sign behind it, it is what stands in front. -/
  unsplit : splitAtEquals false (text ++ ['=']) = (text, some [])
  unbroken : '\n' ∉ text

section Split

variable {quoted : Bool} {text : List Char}
  (h : splitAtEquals quoted (text ++ ['=']) = (text, some []))

include h in
theorem splitAtEquals_spelled :
    splitAtEquals quoted text = (text, none)
      ∧ ∀ rest, splitAtEquals quoted (text ++ ' ' :: '=' :: rest) = (text ++ [' '], some rest) := by
  induction text generalizing quoted with
  | nil =>
      cases quoted with
      | true => cases h
      | false => exact ⟨rfl, fun rest => rfl⟩
  | cons c text ih =>
      rw [List.cons_append, splitAtEquals] at h
      by_cases hc : (c = '=' && !quoted) = true
      · rw [if_pos (by simpa using hc)] at h
        cases h
      · rw [if_neg (by simpa using hc)] at h
        obtain ⟨hbefore, hafter⟩ := Prod.mk.inj h
        obtain ⟨halone, hequals⟩ := ih (Prod.ext (List.cons.inj hbefore).2 hafter)
        refine ⟨?_, fun rest => ?_⟩
        · rw [splitAtEquals, if_neg (by simpa using hc), halone]
        · rw [List.cons_append, splitAtEquals, if_neg (by simpa using hc), hequals]
          rfl

end Split

/-- Between quotes no equals sign parts anything, and a quote that is written twice closes
none. -/
theorem splitAtEquals_double (name rest : List Char) :
    splitAtEquals true (double '\'' name ++ rest) =
      (double '\'' name ++ (splitAtEquals true rest).1, (splitAtEquals true rest).2) := by
  induction name with
  | nil => rfl
  | cons c name ih =>
      rw [double_cons]
      by_cases hc : c = '\''
      · simp [hc, splitAtEquals, ih]
      · simp [hc, splitAtEquals, ih]

theorem not_mem_double {mark c : Char} {name : List Char} (h : c ∉ name) (hmark : c ≠ mark) :
    c ∉ double mark name := by
  rw [double, List.mem_flatMap]
  intro hmem
  obtain ⟨d, hd, hc⟩ := hmem
  split at hc
  · simp [hmark] at hc
  · rw [List.mem_singleton.mp hc] at h
    exact h hd

theorem trim_quoteName (name : List Char) : trim (quoteName name) = quoteName name :=
  trim_of_ends (by decide) (by decide)

/-- Every name can be written between quotes. -/
theorem spells_quoteName {name : List Char} (hnamed : name ≠ []) (hfeed : '\n' ∉ name) :
    Spells (quoteName name) name := by
  refine ⟨?unquoted, hnamed, trim_quoteName name, by simp [quoteName], ?unsplit, ?unbroken⟩
  case unquoted =>
    rw [unquote, trim_quoteName, quoteName]
    simp [halve_double]
  case unsplit =>
    rw [quoteName, List.cons_append, List.append_assoc, splitAtEquals, if_neg (by decide),
      if_pos rfl, Bool.not_false, splitAtEquals_double]
    rfl
  case unbroken =>
    simpa [quoteName] using not_mem_double hfeed (by decide)

/-- A name without quotes and equals signs can be written as it is. -/
theorem spells_self {name : List Char} (hnamed : name ≠ []) (htrimmed : trim name = name)
    (hapart : name.head? ≠ some ':') (hquote : '\'' ∉ name) (hequals : '=' ∉ name)
    (hfeed : '\n' ∉ name) : Spells name name := by
  refine ⟨?unquoted, hnamed, htrimmed, hapart, ?unsplit, hfeed⟩
  case unquoted =>
    rw [unquote, htrimmed]
    -- a text that starts with a quote is no such name
    split
    · exact absurd List.mem_cons_self hquote
    · rfl
  case unsplit =>
    clear hnamed htrimmed hapart hfeed
    induction name with
    | nil => rfl
    | cons c name ih =>
        rw [List.mem_cons, not_or] at hquote hequals
        rw [List.cons_append, splitAtEquals, if_neg (by simp [Ne.symm hequals.1]),
          if_neg (Ne.symm hquote.1), ih hquote.2 hequals.2]

namespace Spells

variable {text name : List Char} (h : Spells text name)

include h

theorem ne_nil : text ≠ [] := by
  intro hnil
  have hname := h.unquoted
  rw [hnil] at hname
  exact h.named hname.symm

theorem trimStart_eq : trimStart text = text := trimStart_of_trim h.trimmed

theorem trimEnd_eq : trimEnd text = text := trimEnd_of_trim h.trimmed

/-- Of what stands behind it, the blanks at the end go. -/
theorem trimEnd_append (value : List Char) : trimEnd (text ++ value) = text ++ trimEnd value := by
  by_cases hblank : allBlank value = true
  · rw [trimEnd_append_of_allBlank hblank, trimEnd_eq_nil_iff.mpr hblank, List.append_nil,
      h.trimEnd_eq]
  · exact trimEnd_append_of_not_allBlank hblank text

theorem not_allBlank_append (value : List Char) : ¬ allBlank (text ++ value) = true := by
  intro hblank
  have hnil := trimEnd_eq_nil_iff.mpr hblank
  rw [h.trimEnd_append] at hnil
  exact h.ne_nil (List.append_eq_nil_iff.mp hnil).1

/-- It starts as nothing does that could stand behind a key. -/
theorem head_apart : ∀ c ∈ text.head?, isBlank c = false ∧ c ≠ ':' ∧ c ≠ '=' := by
  intro c hc
  obtain ⟨rest, htext⟩ := List.head?_eq_some_iff.mp hc
  refine ⟨?_, ?_, ?_⟩
  · have hstart := h.trimStart_eq
    rw [htext, trimStart] at hstart
    rw [← Bool.not_eq_true]
    intro hblank
    rw [List.dropWhile_cons_of_pos hblank] at hstart
    have := (List.dropWhile_suffix (l := rest) isBlank).length_le
    rw [hstart, List.length_cons] at this
    omega
  · intro hcolon
    exact h.apart (hcolon ▸ hc)
  · intro hequals
    have hsplit := h.unsplit
    rw [htext, hequals, List.cons_append, splitAtEquals] at hsplit
    cases hsplit

theorem unquote_blank : unquote (text ++ [' ']) = name := by
  have hblank : trim (text ++ [' ']) = trim text := by
    obtain ⟨c, rest, htext⟩ := List.exists_cons_of_ne_nil h.ne_nil
    have hc := (h.head_apart c (by rw [htext]; rfl)).1
    have hstart : trimStart (text ++ [' ']) = text ++ [' '] := by
      rw [htext, trimStart, List.cons_append, List.dropWhile_cons_of_neg (by simp [hc])]
    rw [trim, hstart, trimEnd_append_of_allBlank (by decide), trim, h.trimStart_eq]
  rw [← h.unquoted, unquote, unquote, hblank]

end Spells

/-! ## Lines -/

/-- What the line of a declaration says, with what stands behind the name. -/
def declarationText (kind : Kind) (text value : List Char) : List Char :=
  kind.keyword.toList ++ ' ' :: (text ++ value)

/-- The line of a declaration. -/
def declarationLine (depth : Nat) (kind : Kind) (text value : List Char) : List Char :=
  behindTabs depth (declarationText kind text value)

/-- The declaration of a line, whose value is still to come. -/
def declarationHead (number depth : Nat) (kind : Kind) (name : List Char)
    (description : List String) : Head where
  line := number
  depth := depth
  subject := .declaration kind (String.ofList name)
    (if description.isEmpty then none else some (String.intercalate "\n" description))

section DeclarationLine

variable {kind : Kind} {text name value : List Char}

theorem keyword_letters (kind : Kind) : ∀ c ∈ kind.keyword.toList,
    isBlank c = false ∧ c ≠ ':' ∧ c ≠ '=' ∧ c ≠ '/' ∧ c ≠ '\uFEFF' := by
  have hall : (kind.keyword.toList.all fun c =>
      !isBlank c && c != ':' && c != '=' && c != '/' && c != '\uFEFF') = true := by
    cases kind <;> decide
  intro c hc
  simpa [and_assoc] using List.all_eq_true.mp hall c hc

theorem exists_cons_declarationText (hkind : kind ≠ .document) (text value : List Char) :
    ∃ c rest, declarationText kind text value = c :: rest
      ∧ isBlank c = false ∧ c ≠ '/' ∧ c ≠ '\uFEFF' := by
  have hne : kind.keyword.toList ≠ [] := by
    cases kind <;> first | decide | exact absurd rfl hkind
  obtain ⟨c, rest, hkeyword⟩ := List.exists_cons_of_ne_nil hne
  have hc := keyword_letters kind c (by rw [hkeyword]; exact List.mem_cons_self)
  refine ⟨c, rest ++ ' ' :: (text ++ value), ?_, hc.1, hc.2.2.2⟩
  rw [declarationText, hkeyword]
  rfl

/-- A keyword with a name behind it declares. -/
theorem declaration?_declarationText (hkind : kind ≠ .document) (h : Spells text name)
    (value : List Char) :
    declaration? (declarationText kind text value) = some (kind, text ++ value) := by
  obtain ⟨c, rest, rfl⟩ := List.exists_cons_of_ne_nil h.ne_nil
  obtain ⟨hblank, hcolon, hequals⟩ := h.head_apart c rfl
  have hletters : ∀ c ∈ kind.keyword.toList,
      (!(isBlank c || c == ':' || c == '=')) = true := by
    intro d hd
    obtain ⟨hd, hd', hd'', -⟩ := keyword_letters kind d hd
    simp [hd, hd', hd'']
  have hend : (!(isBlank ' ' || ' ' == ':' || ' ' == '=')) = false := by decide
  simp only [declaration?, declarationText, List.takeWhile_append_of_pos hletters,
    List.dropWhile_append_of_pos hletters, List.takeWhile_cons, List.dropWhile_cons, hend]
  simp [Kind.ofKeyword?_keyword hkind, trimStart, hblank, hcolon, hequals,
    show isBlank ' ' = true by decide]

theorem shape_declarationText (hkind : kind ≠ .document) (h : Spells text name)
    (value : List Char) :
    Shape.of (declarationText kind text value) = .declaration kind (text ++ value) := by
  obtain ⟨c, rest, htext, -, hslash, -⟩ := exists_cons_declarationText hkind text value
  have hnone : afterStart? ['/', '/', '/'] (declarationText kind text value) = none := by
    rw [htext, afterStart?, if_neg hslash.symm]
  rw [Shape.of, hnone, declaration?_declarationText hkind h]

theorem ofRaw_declarationLine (hkind : kind ≠ .document) (h : Spells text name) (depth : Nat)
    (value : List Char) :
    Line.ofRaw (declarationLine depth kind text value) =
      ⟨depth, declarationText kind text (trimEnd value)⟩ := by
  have htrimmed : trimEnd (declarationText kind text value) =
      declarationText kind text (trimEnd value) := by
    rw [declarationText, List.append_cons,
      trimEnd_append_of_not_allBlank (h.not_allBlank_append value), h.trimEnd_append,
      ← List.append_cons]
    rfl
  obtain ⟨c, rest, htext, hc, -⟩ := exists_cons_declarationText hkind text (trimEnd value)
  have htab : (c == '\t') = false := by
    rw [beq_eq_false_iff_ne]
    intro heq
    rw [heq] at hc
    revert hc
    decide
  have hraw : Line.ofRaw (declarationText kind text value) = ⟨0, c :: rest⟩ := by
    rw [Line.ofRaw, htrimmed, htext]
    simp only [List.takeWhile_cons, List.dropWhile_cons, htab, Bool.false_eq_true, if_false,
      List.length_nil]
  rw [declarationLine, ofRaw_behindTabs, hraw, htext]
  simp [Line.indent, Line.isBlank]

theorem content_declarationText (hkind : kind ≠ .document) (depth : Nat)
    (text value : List Char) :
    Line.content ⟨depth, declarationText kind text value⟩ = declarationText kind text value := by
  obtain ⟨c, rest, htext, hc, -⟩ := exists_cons_declarationText hkind text value
  rw [Line.content, htext, trimStart, List.dropWhile_cons_of_neg (by simp [hc])]

/-- No body goes on with a declaration one level below its head. -/
theorem continuesBody_declarationText (hkind : kind ≠ .document) (h : Spells text name)
    (depth : Nat) (head : Head) (start value : List Char) :
    continuesBody head start ⟨depth, declarationText kind text value⟩ =
      decide (depth > head.depth + 1) := by
  have hends : endsBody (declarationText kind text value) = true := by
    simp [endsBody, declaration?_declarationText hkind h value]
  rw [continuesBody, content_declarationText hkind, hends]
  simp

theorem withoutMark_declarationLine (hkind : kind ≠ .document) (depth : Nat)
    (text value : List Char) :
    withoutMark (declarationLine depth kind text value) =
      declarationLine depth kind text value := by
  obtain ⟨c, rest, htext, hc, -, hmark⟩ := exists_cons_declarationText hkind text value
  have hkept : ¬ allBlank (c :: rest) = true := by simp [allBlank, hc]
  rw [declarationLine, htext, behindTabs_of_not_allBlank depth hkept]
  cases depth with
  | zero => exact withoutMark_cons_of_ne hmark rest
  | succ depth => exact withoutMark_cons_of_ne (by decide) _

theorem not_mem_declarationLine (h : Spells text name) (hvalue : '\n' ∉ value) (depth : Nat)
    (kind : Kind) : '\n' ∉ declarationLine depth kind text value := by
  refine not_mem_behindTabs depth fun hmem => ?_
  rw [declarationText, List.mem_append, List.mem_cons, List.mem_append] at hmem
  rcases hmem with hkeyword | hspace | htext | hmem
  · exact absurd (keyword_letters kind _ hkeyword).1 (by decide)
  · exact absurd hspace (by decide)
  · exact h.unbroken htext
  · exact hvalue hmem

section ReadLine

variable (hkind : kind ≠ .document) (h : Spells text name) (number depth : Nat)
  (description : List String)

include hkind h

theorem readLine_declarationText {part : List Char} {after : Option (List Char)}
    (hsplit : splitAtEquals false (text ++ value) = (part, after)) (hpart : unquote part = name) :
    readLine number description ⟨depth, declarationText kind text value⟩ =
      match after with
      | none => ({}, [(declarationHead number depth kind name description).entry none])
      | some rest =>
          let (mode, entries) := startValue (declarationHead number depth kind name description)
            kind.hasBody (trim rest)
          ({ mode }, entries) := by
  obtain ⟨c, rest, hname⟩ := List.exists_cons_of_ne_nil h.named
  rw [readLine, content_declarationText hkind, shape_declarationText hkind h]
  simp only [hsplit, hpart, hname]
  cases after with
  | none => rfl
  | some rest => rfl

/-- Without an equals sign, a declaration is complete. -/
theorem readLine_bare :
    readLine number description ⟨depth, declarationText kind text []⟩ =
      ({}, [(declarationHead number depth kind name description).entry none]) := by
  have hsplit : splitAtEquals false (text ++ []) = (text, none) := by
    rw [List.append_nil, (splitAtEquals_spelled h.unsplit).1]
  exact readLine_declarationText hkind h number depth description hsplit h.unquoted

/-- Behind an equals sign and nothing else, lines of a body may follow. -/
theorem readLine_equals (hbody : kind.hasBody = true) :
    readLine number description ⟨depth, declarationText kind text [' ', '=']⟩ =
      (⟨.body (declarationHead number depth kind name description) [] [] 0, []⟩, []) := by
  rw [readLine_declarationText hkind h number depth description
    ((splitAtEquals_spelled h.unsplit).2 []) h.unquote_blank, hbody]
  rfl

/-- Behind an equals sign and a fence, all lines follow up to another one. -/
theorem readLine_fence :
    readLine number description ⟨depth, declarationText kind text (' ' :: '=' :: ' ' :: fence)⟩ =
      (⟨.fenced (declarationHead number depth kind name description) [], []⟩, []) := by
  rw [readLine_declarationText hkind h number depth description
    ((splitAtEquals_spelled h.unsplit).2 (' ' :: fence)) h.unquote_blank]
  have hfence : trim (' ' :: fence) = fence := by decide
  simp only [hfence]
  rfl

/-- Behind an equals sign and a value that starts with no fence, lines that go on with it may
follow where the declaration can have a body; otherwise it is complete. -/
theorem readLine_value {v : List Char} (hkept : ¬ allBlank v = true)
    (hunfenced : afterStart? fence (trim v) = none) :
    readLine number description
        ⟨depth, declarationText kind text (' ' :: '=' :: ' ' :: trimEnd v)⟩ =
      if kind.hasBody then
        (⟨.body (declarationHead number depth kind name description) (trim v) [] 0, []⟩, [])
      else
        ({}, [(declarationHead number depth kind name description).entry
          (some (String.ofList (trim v)))]) := by
  have htrimmed : trim (' ' :: trimEnd v) = trim v := trim_trimEnd v
  have hne : (trim v).isEmpty = false := by
    rw [List.isEmpty_eq_false_iff, Ne, trim_eq_nil_iff]
    exact hkept
  rw [readLine_declarationText hkind h number depth description
    ((splitAtEquals_spelled h.unsplit).2 (' ' :: trimEnd v)) h.unquote_blank]
  simp only [htrimmed, startValue, hunfenced, hne]
  cases kind.hasBody with
  | true => rfl
  | false => rfl

/-- What stands behind its name does not count for whether a declaration is read by
itself. -/
theorem reads_declarationText (r : Reading) (value value' : List Char) :
    r.reads ⟨depth, declarationText kind text value⟩ =
      r.reads ⟨depth, declarationText kind text value'⟩ := by
  have hblank : ∀ v, Line.isBlank ⟨depth, declarationText kind text v⟩ = false := by
    intro v
    simp [Line.isBlank, declarationText]
  obtain ⟨mode, description⟩ := r
  cases mode with
  | lines => simp only [Reading.reads, Reading.collects, hblank]
  | fenced head soFar => simp only [Reading.reads, Reading.collects, hblank]
  | body head start soFar blanks =>
      simp only [Reading.reads, Reading.collects, hblank,
        continuesBody_declarationText hkind h depth head start]

end ReadLine

end DeclarationLine

end Tabular.Definition
