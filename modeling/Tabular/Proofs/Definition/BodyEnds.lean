import Tabular.Proofs.Definition.WellNested
import Tabular.Proofs.Text.Blank

/-!
# A line that ends a body is understood

Where a formula goes on below its declaration, a line is asked whether it could be something of
its own, and the body ends if it could. What the line then is, the reader of single lines finds
out by other means: it looks for the first separator and for blanks, and has an order of its
own in which the shapes are tried. The two agree. A line that ends a body is a description, a
declaration, a mention, a property or a flag, and so no line is taken out of a formula only to
be thrown away.
-/

namespace Tabular.Definition

open Text

/-- The character of a separator. -/
def Separator.mark : Separator → Char
  | .colon => ':'
  | .equals => '='

/-- A text of a key, which is a plain name, blanks, a separator and a value. -/
structure Keyed (key : List Char) (s : Separator) (value content : List Char) : Prop where
  name : isPlainName key = true
  parts : ∃ blanks, allBlank blanks = true ∧ content = key ++ blanks ++ s.mark :: value

/-- What a line is that could not be part of a formula. -/
inductive Recognized (content : List Char) : Shape → Prop
  | description {text : List Char} : content = ['/', '/', '/'] ++ text →
      Recognized content (.description (String.ofList (trim text)))
  | declaration {kind : Kind} {rest : List Char} : declaration? content = some (kind, rest) →
      Recognized content (.declaration kind rest)
  | mention {rest : List Char} : content = ['r', 'e', 'f', ' '] ++ rest →
      Recognized content .mention
  | property {key value : List Char} {s : Separator} : Keyed key s value content →
      Recognized content (.property (String.ofList key) s (trim value))
  | flag : isFlagName content = true → Recognized content (.flag (String.ofList content))

/-- Whether a line ends a body by its words: just below a head with nothing behind its equals
sign, where other words would go on with the body. -/
def Reading.endedBy (r : Reading) (l : Line) : Bool :=
  match r.mode with
  | .body head [] _ _ => !l.isBlank && l.depth == head.depth + 1 && endsBody l.content
  | _ => false

/-- A definition in which no line that ends a body is lost. -/
structure KeepsEnds (file text : String) : Prop where
  /-- A line that ends a body by its words is read by itself. -/
  read : ∀ x ∈ linesWhere Reading.endedBy 1 {} (linesOf text),
    x ∈ linesRead (linesOf text) ∧ endsBody x.1.content = true
  /-- A line of such words that is read by itself is recognized, and its one entry says what it
  is recognized as. -/
  recognized : ∀ x ∈ linesRead (linesOf text), endsBody x.1.content = true →
    Recognized x.1.content (Shape.of x.1.content)
      ∧ ∃ e ∈ entries text, e.SaidOn x ∧ ∀ d ∈ entries text, d.line = x.2 → d = e
  /-- A line that is reported as unrecognized could be part of a formula. -/
  reported : ∀ d ∈ (parse text file).diagnostics, d.code = .unrecognizedLine →
    ∃ x ∈ linesRead (linesOf text), d.location = some ⟨file, some x.2⟩
      ∧ endsBody x.1.content = false

/-! ## The characters of a key -/

section Characters

variable {c : Char}

theorem toNat_of_inName (h : inName c = true) : 48 ≤ c.toNat ∧ c.toNat ≤ 122 := by
  have hkinds : (((c.isUpper || c.isLower) || c.isDigit) || c == '_') = true := h
  rw [Bool.or_eq_true, Bool.or_eq_true, Bool.or_eq_true, beq_iff_eq] at hkinds
  have hwithin : ∀ low high : Char, 48 ≤ low.toNat → high.toNat ≤ 122 →
      low.val ≤ c.val → c.val ≤ high.val → 48 ≤ c.toNat ∧ c.toNat ≤ 122 := by
    intro low high hlow hhigh hfirst hlast
    exact ⟨hlow.trans (UInt32.le_iff_toNat_le.mp hfirst),
      (UInt32.le_iff_toNat_le.mp hlast).trans hhigh⟩
  rcases hkinds with ((hupper | hlower) | hdigit) | rfl
  · obtain ⟨hfirst, hlast⟩ := of_decide_eq_true hupper
    exact hwithin 'A' 'Z' (by decide) (by decide) hfirst hlast
  · obtain ⟨hfirst, hlast⟩ := Bool.and_eq_true_iff.mp hlower
    exact hwithin 'a' 'z' (by decide) (by decide) (of_decide_eq_true hfirst)
      (of_decide_eq_true hlast)
  · obtain ⟨hfirst, hlast⟩ := Bool.and_eq_true_iff.mp hdigit
    exact hwithin '0' '9' (by decide) (by decide) (of_decide_eq_true hfirst)
      (of_decide_eq_true hlast)
  · decide

theorem inName_of_startsName (h : startsName c = true) : inName c = true := by
  rw [startsName, Bool.or_eq_true] at h
  show ((c.isAlpha || c.isDigit) || c == '_') = true
  rw [Bool.or_eq_true, Bool.or_eq_true]
  exact h.imp_left Or.inl

theorem startsName_of_isLower (h : c.isLower = true) : startsName c = true := by
  show ((c.isUpper || c.isLower) || c == '_') = true
  rw [h, Bool.or_true, Bool.true_or]

theorem not_isBlank_of_inName (h : inName c = true) : isBlank c = false := by
  obtain ⟨hlow, hhigh⟩ := toNat_of_inName h
  exact isBlank_eq_false (by omega) (by omega)

/-- Names and blanks hold no separator. -/
theorem not_separates (h : inName c = true ∨ isBlank c = true) :
    (!(c == ':' || c == '=')) = true := by
  have hne : ∀ d, inName d = false ∧ isBlank d = false → (c == d) = false := by
    rintro d ⟨hname, hblank⟩
    rw [beq_eq_false_iff_ne]
    rintro rfl
    rw [hname, hblank] at h
    exact h.elim Bool.false_ne_true Bool.false_ne_true
  rw [hne ':' (by decide), hne '=' (by decide)]
  rfl

theorem inName_of_isPlainName {name : List Char} (h : isPlainName name = true) :
    ∀ c ∈ name, inName c = true := by
  cases name with
  | nil => nofun
  | cons first rest =>
      rw [isPlainName, Bool.and_eq_true] at h
      intro c hc
      rcases List.mem_cons.mp hc with rfl | hc
      · exact inName_of_startsName h.1
      · exact List.all_eq_true.mp h.2 c hc

end Characters

/-! ## A key with a separator -/

/-- What is found to start with a key is split at the key. -/
theorem exists_keyed {starts : Char → Bool} (hstarts : ∀ c, starts c = true → startsName c = true)
    {s : Separator} {content : List Char} (h : startsKey starts s.mark content = true) :
    ∃ key value, Keyed key s value content := by
  cases content with
  | nil => cases h
  | cons first rest =>
      rw [startsKey, Bool.and_eq_true] at h
      obtain ⟨hfirst, hbehind⟩ := h
      cases hrest : trimStart (rest.dropWhile inName) with
      | nil =>
          rw [hrest] at hbehind
          cases hbehind
      | cons d value =>
          rw [hrest] at hbehind
          obtain rfl := beq_iff_eq.mp hbehind
          refine ⟨first :: rest.takeWhile inName, value, ?name,
            (rest.dropWhile inName).takeWhile isBlank, ?blanks, ?parts⟩
          case name =>
            rw [isPlainName, hstarts first hfirst, Bool.true_and]
            exact List.all_eq_true.mpr fun c hc => List.mem_takeWhile_imp hc
          case blanks => exact List.all_eq_true.mpr fun c hc => List.mem_takeWhile_imp hc
          case parts =>
            rw [← hrest, trimStart, List.append_assoc, List.takeWhile_append_dropWhile,
              List.cons_append, List.takeWhile_append_dropWhile]

namespace Keyed

variable {key value content : List Char} {s : Separator} (h : Keyed key s value content)

include h

theorem holdsSeparator : content.any (fun c => c == ':' || c == '=') = true := by
  obtain ⟨blanks, -, rfl⟩ := h.parts
  refine List.any_eq_true.mpr ⟨s.mark, List.mem_append_right _ List.mem_cons_self, ?_⟩
  cases s <;> rfl

theorem ne_nil : key ≠ [] := by
  rintro rfl
  exact Bool.false_ne_true h.name

/-- The first separator of the text is the one behind the key. -/
theorem property?_eq : property? content = some (String.ofList key, s, trim value) := by
  obtain ⟨blanks, hblanks, rfl⟩ := h.parts
  have hword : ∀ c ∈ key, isBlank c = false := fun c hc =>
    not_isBlank_of_inName (inName_of_isPlainName h.name c hc)
  have hbefore : ∀ c ∈ key ++ blanks, (!(c == ':' || c == '=')) = true := fun c hc =>
    not_separates ((List.mem_append.mp hc).imp (inName_of_isPlainName h.name c)
      (List.all_eq_true.mp hblanks c))
  have htake : (key ++ blanks ++ s.mark :: value).takeWhile (fun c => !(c == ':' || c == '=')) =
      key ++ blanks := by
    rw [List.takeWhile_append_of_pos hbefore]
    cases s <;> exact List.append_nil _
  have hdrop : (key ++ blanks ++ s.mark :: value).dropWhile (fun c => !(c == ':' || c == '=')) =
      s.mark :: value := by
    rw [List.dropWhile_append_of_pos hbefore]
    cases s <;> rfl
  have hkey : ¬ (key.isEmpty || key.any isBlank) = true := by
    rw [Bool.or_eq_true, List.isEmpty_iff, List.any_eq_true]
    rintro (hnil | ⟨c, hc, hblank⟩)
    · exact h.ne_nil hnil
    · rw [hword c hc] at hblank
      cases hblank
  simp only [property?, htake, hdrop, trim_word_append hword hblanks, if_neg hkey]
  cases s <;> rfl

end Keyed

theorem property?_of_isPlainName {content : List Char} (h : isPlainName content = true) :
    property? content = none := by
  have hdrop : content.dropWhile (fun c => !(c == ':' || c == '=')) = [] :=
    List.dropWhile_eq_nil_iff.mpr fun c hc => not_separates (.inl (inName_of_isPlainName h c hc))
  simp only [property?, hdrop]

theorem isPlainName_of_isFlagName {content : List Char} (h : isFlagName content = true) :
    isPlainName content = true := by
  rw [isFlagName.eq_def] at h
  split at h
  · exact (Bool.and_eq_true_iff.mp h).2
  · cases h

/-! ## What ends a body is recognized -/

/-- A body ends at a description, a declaration, a key with a separator, or a flag. -/
theorem endsBody_cases {content : List Char} (h : endsBody content = true) :
    (afterStart? ['/', '/', '/'] content).isSome = true ∨ (declaration? content).isSome = true
      ∨ (∃ key value s, Keyed key s value content) ∨ isFlagName content = true := by
  rw [endsBody, Bool.or_eq_true, Bool.or_eq_true, Bool.or_eq_true, Bool.or_eq_true] at h
  rcases h with (((hslashes | hcolon) | hequals) | hflag) | hdeclaration
  · exact .inl hslashes
  · obtain ⟨key, value, hkeyed⟩ := exists_keyed (s := .colon) (fun _ hc => hc) hcolon
    exact .inr (.inr (.inl ⟨key, value, _, hkeyed⟩))
  · obtain ⟨key, value, hkeyed⟩ :=
      exists_keyed (s := .equals) (fun _ hc => startsName_of_isLower hc) hequals
    exact .inr (.inr (.inl ⟨key, value, _, hkeyed⟩))
  · exact .inr (.inr (.inr hflag))
  · exact .inr (.inl hdeclaration)

/-- What holds a separator is neither a keyword nor a mention, and nor is a flag. -/
theorem not_word {content : List Char}
    (h : (content.any (fun c => c == ':' || c == '=') || isFlagName content) = true) :
    Kind.ofKeyword? content = none ∧ (content == ['r', 'e', 'f']) = false := by
  rw [Option.eq_none_iff_forall_ne_some, beq_eq_false_iff_ne]
  constructor
  · intro kind hkind
    obtain rfl := Kind.keyword_of_ofKeyword? hkind
    revert h
    cases kind <;> decide
  · rintro rfl
    revert h
    decide

theorem recognized_of_endsBody {content : List Char} (h : endsBody content = true) :
    Recognized content (Shape.of content) := by
  rw [Shape.of]
  cases hslashes : afterStart? ['/', '/', '/'] content with
  | some text => exact .description (afterStart?_eq_some_iff.mp hslashes)
  | none =>
      cases hdeclaration : declaration? content with
      | some found => exact .declaration hdeclaration
      | none =>
          have hends := endsBody_cases h
          rw [hslashes, hdeclaration] at hends
          obtain hkeyed | hflag := hends.resolve_left nofun |>.resolve_left nofun
          · obtain ⟨key, value, s, hkeyed⟩ := hkeyed
            obtain ⟨hkeyword, hword⟩ := not_word (by rw [hkeyed.holdsSeparator, Bool.true_or])
            simp only [hword, hkeyword, hkeyed.property?_eq, Bool.false_or]
            -- behind the key "ref" a blank makes the line a mention, whatever follows
            split
            · next hmention =>
                obtain ⟨rest, hrest⟩ := Option.isSome_iff_exists.mp hmention
                exact .mention (afterStart?_eq_some_iff.mp hrest)
            · exact .property hkeyed
          · obtain ⟨hkeyword, hword⟩ := not_word (by rw [hflag, Bool.or_true])
            have hname := isPlainName_of_isFlagName hflag
            have hmention : afterStart? ['r', 'e', 'f', ' '] content = none := by
              rw [Option.eq_none_iff_forall_ne_some]
              intro rest hrest
              rw [afterStart?_eq_some_iff.mp hrest] at hflag
              cases hflag
            simp only [hword, hkeyword, property?_of_isPlainName hname, hname, hmention,
              Bool.false_or, if_true]
            exact .flag hflag

/-- What is recognized is not said to be unrecognized. -/
theorem Recognized.not_unrecognized {content : List Char} {shape : Shape}
    (h : Recognized content shape) (text : String) :
    ¬ shape.Says content (.unrecognized text) := by
  intro hunrecognized
  have hunknown : shape = .unknown := by
    cases hunrecognized
    rfl
  subst hunknown
  cases h

/-! ## Lines that end a body -/

theorem Reading.reads_of_endedBy {r : Reading} {l : Line} (h : r.endedBy l = true) :
    r.reads l = true ∧ endsBody l.content = true := by
  rw [endedBy] at h
  split at h
  · next head soFar blanks hmode =>
      rw [Bool.and_eq_true, Bool.and_eq_true, Bool.not_eq_true', beq_iff_eq] at h
      obtain ⟨⟨hblank, hdepth⟩, hends⟩ := h
      have hbelow : ¬ l.depth > head.depth + 1 := by omega
      simp [reads, collects, hmode, continuesBody, hblank, hends, hbelow]
  · cases h

/-- An entry is reported as unrecognized only if it says so. -/
theorem Entry.diagnostic?_unrecognized {file : String} {e : Entry} {d : Diagnostic}
    (h : e.diagnostic? file = some d) (hcode : d.code = .unrecognizedLine) :
    d.location = some ⟨file, some e.line⟩ ∧ ∃ content, e.item = .unrecognized content := by
  obtain ⟨line, depth, item⟩ := e
  cases item with
  | nameless kind =>
      obtain rfl := Option.some.inj h
      cases hcode
  | unrecognized content =>
      obtain rfl := Option.some.inj h
      exact ⟨rfl, content, rfl⟩
  | _ => cases h

/-- No line that ends a body is lost, in any definition. -/
theorem keepsEnds_parse (file text : String) : KeepsEnds file text where
  read x hx := by
    obtain ⟨r, hstop, hends⟩ := mem_linesWhere_iff.mp hx
    obtain ⟨hreads, hwords⟩ := Reading.reads_of_endedBy hends
    exact ⟨mem_linesWhere_iff.mpr ⟨r, hstop, hreads⟩, hwords⟩
  recognized x hx hends := by
    obtain ⟨e, he, hsaid⟩ := exists_right_of_mem (saidOn_entries text).flip hx
    refine ⟨recognized_of_endsBody hends, e, he, hsaid, fun d hd hline => ?_⟩
    exact eq_of_line_eq hd he (hline.trans hsaid.line.symm)
  reported d hd hcode := by
    obtain ⟨e, he, hreport⟩ := List.mem_filterMap.mp hd
    obtain ⟨x, hx, hsaid⟩ := exists_right_of_mem (saidOn_entries text) he
    obtain ⟨hlocation, content, hitem⟩ := Entry.diagnostic?_unrecognized hreport hcode
    refine ⟨x, hx, by rw [hlocation, hsaid.line], ?_⟩
    rw [← Bool.not_eq_true]
    intro hends
    exact (recognized_of_endsBody hends).not_unrecognized content (hitem ▸ hsaid.item)

end Tabular.Definition
