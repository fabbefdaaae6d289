import Tabular.Proofs.Definition.Amend
import Tabular.Proofs.Definition.Dedent

/-!
# A definition that stands deeper

Tabs put in front of all lines of a definition, the same number everywhere, put every entry
deeper and leave it else as it was: whether a line goes on a body is a question about two
depths, and so is what a declaration takes in. A value has the common depth of its lines
taken away.

There is one exception. Code on the line of an opening fence is taken for a line without
tabs, so nothing is taken away from the lines below it, and a deeper text gives another
value. The texts without such a value are exactly those that can be put deeper unchanged.
-/

namespace Tabular.Definition

open Text

/-- A head that stands deeper. -/
def Head.indent (k : Nat) (h : Head) : Head := { h with depth := h.depth + k }

/-- An entry that stands deeper. -/
def Entry.indent (k : Nat) (e : Entry) : Entry := { e with depth := e.depth + k }

/-- A mode whose head stands deeper. What a fence starts with is code on the line of the
head, which has no depth. -/
def Mode.indent (k : Nat) : Mode → Mode
  | .lines => .lines
  | .body head start soFar blanks =>
      .body (head.indent k) start (soFar.map (Line.indent k)) blanks
  | .fenced head start => .fenced (head.indent k) start

/-- A reading whose mode stands deeper. -/
def Reading.indent (k : Nat) (r : Reading) : Reading := { r with mode := r.mode.indent k }

variable (k : Nat)

/-! ## One line -/

theorem startValue_indent (head : Head) (hasBody : Bool) (text : List Char) :
    startValue (head.indent k) hasBody text =
      ((startValue head hasBody text).1.indent k,
        (startValue head hasBody text).2.map (Entry.indent k)) := by
  rw [startValue, startValue]
  split
  · split
    · rfl
    · rfl
  · split
    · rfl
    · split
      · rfl
      · rfl

theorem readLine_indent (number : Nat) (description : List String) {l : Line}
    (hblank : l.isBlank = false) :
    readLine number description (l.indent k) =
      ((readLine number description l).1.indent k,
        (readLine number description l).2.map (Entry.indent k)) := by
  rw [readLine, readLine, Line.content_indent, Line.depth_indent k hblank]
  cases Shape.of l.content with
  | description text => rfl
  | mention => rfl
  | keyword kind => rfl
  | flag key => rfl
  | unknown => rfl
  | property key separator value =>
      cases separator with
      | colon => rfl
      | equals =>
          exact congrArg (fun p : Mode × List Entry => (({ mode := p.1 } : Reading), p.2))
            (startValue_indent k ⟨number, l.depth, .property key⟩ true value)
  | declaration kind rest =>
      simp only
      split
      · rfl
      · split
        · rfl
        · exact congrArg (fun p : Mode × List Entry => (({ mode := p.1 } : Reading), p.2))
            (startValue_indent k ⟨number, l.depth, .declaration kind _ _⟩ _ _)

theorem continuesBody_indent (head : Head) (start : List Char) {l : Line}
    (hblank : l.isBlank = false) :
    continuesBody (head.indent k) start (l.indent k) = continuesBody head start l := by
  have hdepth : (head.indent k).depth = head.depth + k := rfl
  have hdeep : (l.depth + k > head.depth + k + 1) = (l.depth > head.depth + 1) := by
    simp only [eq_iff_iff]
    omega
  have hjust : (l.depth + k == head.depth + k + 1) = (l.depth == head.depth + 1) := by
    rw [Bool.eq_iff_iff, beq_iff_eq, beq_iff_eq]
    omega
  simp only [continuesBody, hdepth, Line.depth_indent k hblank, Line.content_indent, hdeep, hjust]

theorem Mode.finish_indent {m : Mode} (h : m.isFenced = false) :
    (m.indent k).finish = m.finish.map (Entry.indent k) := by
  cases m with
  | lines => rfl
  | fenced head start => cases h
  | body head start soFar blanks =>
      show [(head.indent k).entry (bodyValue start (soFar.map (Line.indent k)))] =
        [(head.entry (bodyValue start soFar)).indent k]
      rw [bodyValue_indent]
      rfl

/-- Outside of fences, a step of the reader knows only how much deeper a line is than the
head. -/
theorem Reading.next_indent {r : Reading} (hr : r.mode.isFenced = false) (number : Nat)
    (l : Line) : (r.indent k).next number (l.indent k) =
      ((r.next number l).1.indent k, (r.next number l).2.map (Entry.indent k)) := by
  obtain ⟨mode, description⟩ := r
  cases mode with
  | fenced head start => cases hr
  | lines =>
      rw [Reading.indent, Mode.indent, next_lines, next_lines, Line.isBlank_indent]
      cases hblank : l.isBlank with
      | true => rfl
      | false => exact readLine_indent k number description hblank
  | body head start soFar blanks =>
      rw [Reading.indent, Mode.indent, next_body, next_body, Line.isBlank_indent]
      cases hblank : l.isBlank with
      | true => rfl
      | false =>
          simp only [Bool.false_eq_true, if_false]
          rw [continuesBody_indent k head start hblank]
          split
          · have hgrown : (soFar ++ List.replicate blanks Line.blank ++ [l]).map (Line.indent k) =
                soFar.map (Line.indent k) ++ List.replicate blanks Line.blank ++ [l.indent k] := by
              rw [List.map_append, List.map_append, List.map_replicate,
                Line.indent_of_blank k (show Line.blank.isBlank = true from rfl),
                List.map_singleton]
            rw [← hgrown]
            rfl
          · rw [readLine_indent k number description hblank, bodyValue_indent]
            rfl

/-! ## Values between fences -/

section Fences

variable (lines : List Line)

theorem fencedLines_indent :
    fencedLines (lines.map (Line.indent k)) = (fencedLines lines).map (Line.indent k) := by
  induction lines with
  | nil => rfl
  | cons l rest ih =>
      rw [List.map_cons, fencedLines, fencedLines, Line.text_indent]
      cases hclose : beforeEnd? fence l.text with
      | none =>
          simp only [List.map_cons, ih]
      | some before =>
          have hblank : l.isBlank = false := by
            rw [Line.isBlank, beforeEnd?_eq_some_iff.mp hclose]
            simp [fence]
          simp only
          by_cases hlast : (trimEnd before).isEmpty = true
          · simp only [hlast, if_true, List.map_nil]
          · simp only [hlast, Bool.false_eq_true, if_false, List.map_singleton,
              Line.depth_indent k hblank]
            have hkept : Line.isBlank ⟨l.depth, trimEnd before⟩ = false := by
              rw [← Bool.not_eq_true]
              exact hlast
            rw [Line.indent, if_neg (ne_true_of_eq_false hkept)]

theorem behindFence_indent :
    behindFence (lines.map (Line.indent k)) = (behindFence lines).map (Line.indent k) := by
  induction lines with
  | nil => rfl
  | cons l rest ih =>
      rw [List.map_cons, behindFence, behindFence, Line.text_indent]
      split
      · rfl
      · exact ih

theorem fencedLength_indent : fencedLength (lines.map (Line.indent k)) = fencedLength lines := by
  rw [fencedLength, fencedLength, behindFence_indent, List.length_map, List.length_map]

theorem trimStart_fence_iff {before : List Char} :
    trimStart (before ++ fence) = fence ↔ allBlank before = true := by
  constructor
  · intro h
    have hsplit : (before ++ fence).takeWhile isBlank ++ trimStart (before ++ fence) =
        before ++ fence := List.takeWhile_append_dropWhile
    rw [h] at hsplit
    rw [← List.append_cancel_right hsplit]
    exact List.all_takeWhile
  · intro h
    rw [trimStart, List.dropWhile_append_of_pos (List.all_eq_true.mp h)]
    rfl

/-- Nothing stands between two fences if the next line with anything on it is the closing
one. -/
theorem forall_fencedLines_blank_iff :
    (∀ l ∈ fencedLines lines, l.isBlank = true)
      ↔ ∀ m ∈ firstLine? lines, m.content = fence := by
  induction lines with
  | nil => exact ⟨nofun, nofun⟩
  | cons l rest ih =>
      rw [fencedLines, firstLine?, List.find?_cons]
      cases hclose : beforeEnd? fence l.text with
      | some before =>
          have htext := beforeEnd?_eq_some_iff.mp hclose
          have hblank : l.isBlank = false := by
            rw [Line.isBlank, htext]
            simp [fence]
          have hcontent : l.content = fence ↔ trimEnd before = [] := by
            rw [Line.content, htext, trimEnd_eq_nil_iff, trimStart_fence_iff]
          simp only [hblank, Bool.not_false, Option.mem_some_iff, forall_eq', hcontent]
          by_cases hlast : trimEnd before = []
          · simp [hlast]
          · simp [hlast, Line.isBlank]
      | none =>
          cases hblank : l.isBlank with
          | true =>
              simp only [Bool.not_true, List.forall_mem_cons, hblank, true_and]
              exact ih
          | false =>
              simp only [Bool.not_false, Option.mem_some_iff, forall_eq', List.forall_mem_cons,
                hblank, Bool.false_eq_true, false_and, false_iff]
              intro hcontent
              have htext : l.text = l.text.takeWhile isBlank ++ fence := by
                rw [← hcontent, Line.content, trimStart, List.takeWhile_append_dropWhile]
              rw [beforeEnd?_eq_some_iff.mpr htext] at hclose
              cases hclose

/-- A value that a fence starts stays the same under a deeper text, unless it has code on
the line of the fence and goes on behind it. -/
theorem fencedValue_start_indent_iff {k : Nat} (hk : 0 < k) {value : List Char}
    {start : List Line} (hstart : fenceStart? value = some start) :
    fencedValue (start ++ (fencedLines lines).map (Line.indent k)) =
        fencedValue (start ++ fencedLines lines)
      ↔ ∀ code, start = [code] → ∀ m ∈ firstLine? lines, m.content = fence := by
  rcases fenceStart?_cases hstart with rfl | ⟨code, hcode, rfl⟩
  · exact ⟨fun _ => nofun, fun _ => fencedValue_indent k (fencedLines lines)⟩
  · have hblank : Line.isBlank ⟨0, code⟩ = false := by
      rw [Line.isBlank, List.isEmpty_eq_false_iff]
      exact hcode
    rw [List.singleton_append, List.singleton_append, fencedValue_cons_indent_iff hk rfl hblank,
      forall_fencedLines_blank_iff]
    exact ⟨fun h _ _ => h, fun h => h ⟨0, code⟩ rfl⟩

end Fences

/-! ## A whole text -/

/-- Whether all code that stands on the line of an opening fence ends there: the next line
with anything on it, if there is one, is the closing fence. -/
def FencesEven (number : Nat) (r : Reading) (lines : List Line) : Prop :=
  ∀ before l after, lines = before ++ l :: after → (r.after number before).reads l = true →
    ∀ code, l.value?.bind fenceStart? = some [code] → ∀ m ∈ firstLine? after, m.content = fence

theorem fencesEven_cons_iff {number : Nat} {r : Reading} {l : Line} {rest : List Line} :
    FencesEven number r (l :: rest)
      ↔ (r.reads l = true → ∀ code, l.value?.bind fenceStart? = some [code] →
          ∀ m ∈ firstLine? rest, m.content = fence)
        ∧ FencesEven (number + 1) (r.next number l).1 rest := by
  constructor
  · intro h
    refine ⟨fun hreads => h [] l rest rfl hreads, fun before m after heq hreads => ?_⟩
    exact h (l :: before) m after (congrArg (l :: ·) heq) hreads
  · intro h before m after heq hreads
    cases before with
    | nil =>
        obtain ⟨rfl, rfl⟩ := List.cons.inj heq
        exact h.1 hreads
    | cons first before =>
        obtain ⟨rfl, rfl⟩ := List.cons.inj heq
        exact h.2 before m after rfl hreads

instance decidableFencesEven : ∀ number r lines, Decidable (FencesEven number r lines)
  | _, _, [] => .isTrue fun before _ _ heq => absurd heq.symm (by simp)
  | number, r, l :: rest =>
      have := decidableFencesEven (number + 1) (r.next number l).1 rest
      have : Decidable (∀ code, l.value?.bind fenceStart? = some [code] →
          ∀ m ∈ firstLine? rest, m.content = fence) :=
        match l.value?.bind fenceStart? with
        | some [code] =>
            decidable_of_iff (∀ m ∈ firstLine? rest, m.content = fence)
              ⟨fun h _ _ => h, fun h => h code rfl⟩
        | some [] => .isTrue nofun
        | some (_ :: _ :: _) => .isTrue nofun
        | none => .isTrue nofun
      decidable_of_iff _ fencesEven_cons_iff.symm

/-- In a fence no line is read, and so none opens another. -/
theorem fencesEven_fenced_iff {number : Nat} {head : Head} {soFar : List Line}
    {description : List String} {lines : List Line} :
    FencesEven number ⟨.fenced head soFar, description⟩ lines
      ↔ FencesEven (number + fencedLength lines) ⟨.lines, description⟩ (behindFence lines) := by
  induction lines generalizing number soFar with
  | nil =>
      refine ⟨fun _ before l after heq => ?_, fun _ before l after heq => ?_⟩
      · exact absurd heq.symm (by simp [behindFence])
      · exact absurd heq.symm (by simp)
  | cons l rest ih =>
      have hnot : (⟨.fenced head soFar, description⟩ : Reading).reads l = false := by
        simp [Reading.reads, Reading.collects]
      rw [fencesEven_cons_iff, hnot, Reading.next_fenced]
      cases hclose : beforeEnd? fence l.text with
      | none =>
          have hopen : ¬ (beforeEnd? fence l.text).isSome = true := by simp [hclose]
          rw [fencedLength_inside l rest hopen, behindFence, if_neg hopen, ih,
            show number + 1 + fencedLength rest = number + (fencedLength rest + 1) by omega]
          simp
      | some before =>
          have hclosed : (beforeEnd? fence l.text).isSome = true := by simp [hclose]
          rw [fencedLength_closing l rest hclosed, behindFence, if_pos hclosed]
          simp

theorem Head.entry_indent_iff {head : Head} {k : Nat} {v w : String} :
    (head.indent k).entry (some v) = (head.entry (some w)).indent k ↔ v = w := by
  obtain ⟨line, depth, subject⟩ := head
  cases subject with
  | declaration kind name description => simp [Head.indent, Head.entry, Entry.indent]
  | property key => simp [Head.indent, Head.entry, Entry.indent]

/-- What is read of a deeper text: the same, only deeper, exactly if its fences are even. -/
theorem entriesFrom_indent_iff {k : Nat} (hk : 0 < k) (lines : List Line) :
    ∀ {r : Reading}, r.mode.isFenced = false → ∀ number,
      entriesFrom number (r.indent k) (lines.map (Line.indent k)) =
          (entriesFrom number r lines).map (Entry.indent k)
        ↔ FencesEven number r lines := by
  -- a fence is passed in one go, so the induction is on the number of lines left
  induction hlength : lines.length using Nat.strongRecOn generalizing lines with
  | _ n ih =>
      intro r hr number
      cases lines with
      | nil =>
          refine ⟨fun _ before l after heq => ?_, fun _ => Mode.finish_indent k hr⟩
          exact absurd heq.symm (by simp)
      | cons l rest =>
          have hcancel : ∀ out es es' : List Entry,
              out.map (Entry.indent k) ++ es' = (out ++ es).map (Entry.indent k)
                ↔ es' = es.map (Entry.indent k) := by
            intro out es es'
            rw [List.map_append, List.append_cancel_left_eq]
          rw [List.map_cons, entriesFrom_cons, entriesFrom_cons, Reading.next_indent k hr, hcancel,
            fencesEven_cons_iff]
          have hstart := Reading.next_fenced? hr number l
          generalize (r.next number l).1 = next at hstart ⊢
          have hlater : ∀ later : List Line, later.length ≤ rest.length →
              ∀ {r : Reading}, r.mode.isFenced = false → ∀ number,
                entriesFrom number (r.indent k) (later.map (Line.indent k)) =
                    (entriesFrom number r later).map (Entry.indent k)
                  ↔ FencesEven number r later := by
            intro later hle
            refine ih later.length ?_ later rfl
            rw [← hlength, List.length_cons]
            omega
          cases hopened : next.mode.isFenced with
          | false =>
              -- both readers go on with the next line, and this one opens no fence
              have hnone : next.mode.fenced? = none := by
                rw [← Option.not_isSome_iff_eq_none, ← Mode.isFenced_iff, hopened]
                exact Bool.false_ne_true
              rw [hnone] at hstart
              rw [hlater rest (Nat.le_refl _) hopened, iff_and_self]
              intro _ hreads code hcode
              rw [hreads, if_pos rfl, hcode] at hstart
              cases hstart
          | true =>
              obtain ⟨mode, description⟩ := next
              cases mode with
              | lines => cases hopened
              | body head start soFar blanks => cases hopened
              | fenced head start =>
                  -- the value decides, and both readers go on behind the closing fence
                  have hreads : r.reads l = true := by
                    rw [← Bool.not_eq_false]
                    intro hnot
                    rw [hnot, if_neg Bool.false_ne_true] at hstart
                    cases hstart
                  rw [hreads, if_pos rfl] at hstart
                  obtain ⟨value, -, hvalue⟩ := Option.bind_eq_some_iff.mp hstart.symm
                  have hrest := hlater (behindFence rest) (length_behindFence_le rest)
                    (r := ⟨.lines, description⟩) rfl (number + 1 + fencedLength rest)
                  rw [Reading.indent, Mode.indent, entriesFrom_fenced, entriesFrom_fenced,
                    fencedLines_indent, behindFence_indent, fencedLength_indent, List.map_cons,
                    List.cons.injEq, Head.entry_indent_iff,
                    fencedValue_start_indent_iff rest hk hvalue, fencesEven_fenced_iff, ← hrest,
                    ← hstart]
                  simp only [Mode.fenced?, hreads, Option.some.injEq, true_implies]
                  exact Iff.rfl

/-! ## The tree -/

/-- How entries nest is a question about which is deeper. -/
theorem documentOf_indent (es : List Entry) :
    documentOf (es.map (Entry.indent k)) = documentOf es := by
  have hpieces : pieces (es.map (Entry.moved (fun line => line) (· + k))) =
      amendPieces (fun line => line) (· + k) (fun _ bag => bag) (pieces es) :=
    pieces_moved (fun a b => by omega) fun _ _ _ => rfl
  rw [show Entry.indent k = Entry.moved (fun line => line) (· + k) from rfl,
    documentOf_amend hpieces rfl (fun _ => rfl), Node.amend_id]

theorem filterMap_diagnostic?_indent (file : String) (es : List Entry) :
    (es.map (Entry.indent k)).filterMap (·.diagnostic? file) =
      es.filterMap (·.diagnostic? file) := by
  rw [List.filterMap_map]
  rfl

/-! ## A text that is put deeper -/

/-- A text with tabs put in front of each line that is not blank. -/
def indented (k : Nat) (text : String) : String :=
  ofRawLines ((rawLines text).map (behindTabs k))

theorem rawLines_indented (text : String) :
    rawLines (indented k text) = (rawLines text).map (behindTabs k) := by
  refine rawLines_ofRawLines ?_ ?_
  · rw [Ne, List.map_eq_nil_iff]
    exact rawLines_ne_nil text
  · intro l hl
    obtain ⟨m, hm, rfl⟩ := List.mem_map.mp hl
    exact not_mem_behindTabs k (not_mem_of_mem_rawLines hm)

/-- A text that is put deeper starts with no byte-order mark either. -/
theorem entries_indented {text : String} (hmark : text.toList.head? ≠ some '\uFEFF') :
    entries (indented k text) =
      entriesFrom 1 {} (((rawLines text).map Line.ofRaw).map (Line.indent k)) := by
  have hlines := withoutMarkInFirst_rawLines hmark
  rw [entries_eq_entriesFrom, rawLines_indented, ← map_ofRaw_behindTabs]
  refine congrArg (fun ls => entriesFrom 1 {} (List.map Line.ofRaw ls)) ?_
  generalize rawLines text = ls at hlines
  cases ls with
  | nil => rfl
  | cons l rest =>
      have hfirst : withoutMark l = l := (List.cons.inj hlines).1
      have hdeeper : withoutMark (List.replicate k '\t' ++ l) = List.replicate k '\t' ++ l := by
        cases k with
        | zero => exact hfirst
        | succ k => exact withoutMark_cons_of_ne (by decide) _
      rw [List.map_cons, withoutMarkInFirst, behindTabs]
      refine congrArg (· :: _) ?_
      split
      · exact hfirst
      · exact hdeeper

theorem fencesEven_blankEnd_iff {number : Nat} {r : Reading} {lines : List Line} :
    FencesEven number r (lines ++ [Line.blank]) ↔ FencesEven number r lines := by
  induction lines generalizing number r with
  | nil =>
      have hnot : r.reads Line.blank = false := by simp [Reading.reads, Line.isBlank, Line.blank]
      rw [List.nil_append, fencesEven_cons_iff, hnot]
      refine ⟨fun _ before l after heq => absurd heq.symm (by simp),
        fun _ => ⟨fun hreads => absurd hreads Bool.false_ne_true, ?_⟩⟩
      intro before l after heq
      exact absurd heq.symm (by simp)
  | cons l rest ih =>
      have hfirst : firstLine? (rest ++ [Line.blank]) = firstLine? rest := by
        rw [firstLine?, List.find?_append]
        exact Option.or_none
      rw [List.cons_append, fencesEven_cons_iff, ih, hfirst, ← fencesEven_cons_iff]

theorem fencesEven_rawLines_iff {text : String} (hmark : text.toList.head? ≠ some '\uFEFF') :
    FencesEven 1 {} ((rawLines text).map Line.ofRaw) ↔ FencesEven 1 {} (linesOf text) := by
  have hlines := map_ofRaw_rawLines text
  rw [withoutMarkInFirst_rawLines hmark] at hlines
  rcases hlines with heq | heq
  · rw [heq]
  · rw [heq, fencesEven_blankEnd_iff]

/-- Where the fences are even, only relative depths count: a deeper text is read into the
same tree with the same reports. And where they are not, a value changes with the depth. -/
theorem parse_indented_of_fencesEven {text : String}
    (hmark : text.toList.head? ≠ some '\uFEFF') :
    (∀ k, 0 < k → (entries (indented k text) = (entries text).map (Entry.indent k)
        ↔ FencesEven 1 {} (linesOf text)))
      ∧ (FencesEven 1 {} (linesOf text) →
        ∀ k file, parse (indented k text) file = parse text file) := by
  have hiff : ∀ k, 0 < k → (entries (indented k text) = (entries text).map (Entry.indent k)
      ↔ FencesEven 1 {} (linesOf text)) := by
    intro k hk
    rw [entries_indented k hmark, entries_eq_entriesFrom text, withoutMarkInFirst_rawLines hmark,
      ← fencesEven_rawLines_iff hmark]
    exact entriesFrom_indent_iff hk _ (r := {}) rfl 1
  refine ⟨hiff, fun heven k file => ?_⟩
  have hentries : entries (indented k text) = (entries text).map (Entry.indent k) := by
    rcases Nat.eq_zero_or_pos k with rfl | hk
    · have hsame : indented 0 text = text := by
        rw [indented, List.map_congr_left fun l _ => behindTabs_zero l, List.map_id',
          ofRawLines_rawLines]
      rw [hsame]
      exact (List.map_id' (entries text)).symm
    · exact (hiff k hk).mpr heven
  rw [parse, parse, hentries, documentOf_indent, filterMap_diagnostic?_indent]

/-- A formula between two fences that stand by themselves. -/
theorem parse_indented_fencedFormula :
    "measure M = ```\n\t[A] +\n\t[B]\n```\n".toList.head? ≠ some '\uFEFF'
      ∧ ∀ k file, parse (indented k "measure M = ```\n\t[A] +\n\t[B]\n```\n") file =
        parse "measure M = ```\n\t[A] +\n\t[B]\n```\n" file :=
  ⟨by decide, (parse_indented_of_fencesEven (by decide)).2 (by decide +kernel)⟩

/-- The second line of the code has no tabs to lose at first, and keeps the tab it gets. -/
theorem not_parse_indented_codeAtFence :
    indented 1 "measure M = ```a\nb\n```\n" = "\tmeasure M = ```a\n\tb\n\t```\n"
      ∧ parse (indented 1 "measure M = ```a\nb\n```\n") "" ≠
        parse "measure M = ```a\nb\n```\n" "" := by
  refine ⟨by decide +kernel, fun h => ?_⟩
  have hvalues := congrArg
    (fun out => out.root.children.map (·.properties.get? "expression")) h
  exact absurd hvalues (by decide +kernel)

end Tabular.Definition
