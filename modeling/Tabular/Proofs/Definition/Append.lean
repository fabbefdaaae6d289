import Mathlib.Data.List.Induction
import Tabular.Proofs.Definition.Lines
import Tabular.Proofs.Definition.Shift

/-!
# A definition in two files

A definition may be cut into two at a line feed and read from two files, and says the same
as before, if the cut is in a good place: not inside a fence, not between a description
and what it describes, and in front of a line that stands in no declaration.

At such a place the reader may still be at the body of a formula, or behind blank lines
that could go on it. But the line behind the cut is not deep enough to belong to a body,
and where it ends one, it is read as the first line of a text is read. Going on therefore
gives what is complete at the cut, and then what the second part gives alone. The tree is
cut as well: an entry of depth zero is taken in by no declaration above it, nor is what
stands behind it.
-/

namespace Tabular.Definition

open Text

/-- The first line that is not blank. -/
def firstLine? (lines : List Line) : Option Line := lines.find? (!·.isBlank)

/-- The last line that is not blank. -/
def lastLine? (lines : List Line) : Option Line := firstLine? lines.reverse

/-- Whether a line is one of a description. -/
def Line.isDescription (l : Line) : Bool :=
  (afterStart? ['/', '/', '/'] l.content).isSome

/-- Whether a fence is open. -/
def Mode.isFenced : Mode → Bool
  | .fenced _ _ => true
  | _ => false

/-- Two texts that say alone what they say together. -/
structure Joinable (a b : String) : Prop where
  /-- Every fence that the first text opens is closed in it. -/
  fences : (Reading.after 1 {} (linesOf a)).mode.isFenced = false
  /-- The first text does not end with a description. -/
  described : ∀ l ∈ lastLine? (linesOf a), l.isDescription = false
  /-- The second text does not start with a byte-order mark. -/
  unmarked : b.toList.head? ≠ some '\uFEFF'
  /-- The second text starts outside of any declaration. -/
  outside : ∀ l ∈ firstLine? (linesOf b), l.depth = 0

/-! ## What the reader keeps -/

/-- A description waits only where a line is read by itself. -/
def Reading.Sound (r : Reading) : Prop := r.mode = .lines ∨ r.description = []

theorem isDescription_of_shape {l : Line} {text : String}
    (h : Shape.of l.content = .description text) : l.isDescription = true := by
  rw [Line.isDescription]
  cases hstart : afterStart? ['/', '/', '/'] l.content with
  | some rest => rfl
  | none =>
      rw [Shape.of, hstart] at h
      simp only at h
      split at h
      · cases h
      · split at h
        · cases h
        · split at h
          · cases h
          · split at h
            · cases h
            · split at h
              · cases h
              · cases h

/-- A line that is read by itself leaves no description but its own. -/
theorem readLine_description (number : Nat) (description : List String) (l : Line) :
    (readLine number description l).1.description = []
      ∨ l.isDescription = true ∧ (readLine number description l).1.mode = .lines := by
  rw [readLine]
  cases hshape : Shape.of l.content with
  | description text => exact Or.inr ⟨isDescription_of_shape hshape, rfl⟩
  | mention => exact Or.inl rfl
  | keyword kind => exact Or.inl rfl
  | flag key => exact Or.inl rfl
  | unknown => exact Or.inl rfl
  | property key separator value =>
      cases separator with
      | colon => exact Or.inl rfl
      | equals => exact Or.inl rfl
  | declaration kind rest =>
      refine Or.inl ?_
      simp only
      split
      · rfl
      · split
        · rfl
        · rfl

theorem Reading.next_blank {r : Reading} {l : Line} (hl : l.isBlank = true) (number : Nat) :
    (r.next number l).1.description = r.description
      ∧ (r.mode = .lines → (r.next number l).1.mode = .lines) := by
  obtain ⟨mode, description⟩ := r
  cases mode with
  | lines =>
      rw [next_lines, if_pos hl]
      exact ⟨rfl, fun h => h⟩
  | body head start soFar blanks =>
      rw [next_body, if_pos hl]
      exact ⟨rfl, nofun⟩
  | fenced head soFar =>
      rw [next_fenced]
      split
      · exact ⟨rfl, nofun⟩
      · exact ⟨rfl, nofun⟩

/-- After a line that is not blank, a description is waiting only if that line is one. -/
theorem Reading.next_description {r : Reading} (hr : r.Sound) {l : Line}
    (hl : l.isBlank = false) (number : Nat) :
    (r.next number l).1.description = []
      ∨ l.isDescription = true ∧ (r.next number l).1.mode = .lines := by
  have hnot : ¬ l.isBlank = true := ne_true_of_eq_false hl
  obtain ⟨mode, description⟩ := r
  cases mode with
  | lines =>
      rw [next_lines, if_neg hnot]
      exact readLine_description number description l
  | body head start soFar blanks =>
      have hdescription : description = [] := hr.resolve_left nofun
      rw [next_body, if_neg hnot]
      split
      · exact Or.inl hdescription
      · exact readLine_description number description l
  | fenced head soFar =>
      have hdescription : description = [] := hr.resolve_left nofun
      rw [next_fenced]
      split
      · exact Or.inl hdescription
      · exact Or.inl hdescription

theorem Reading.after_append (number : Nat) (r : Reading) (a b : List Line) :
    r.after number (a ++ b) = (r.after number a).after (number + a.length) b := by
  induction a generalizing number r with
  | nil => rfl
  | cons l rest ih =>
      rw [List.cons_append, Reading.after, Reading.after, ih, List.length_cons,
        show number + 1 + rest.length = number + (rest.length + 1) by omega]

/-- Where the reader stands, a description waits only if the last line was one. -/
theorem Reading.description_after (lines : List Line) :
    (Reading.after 1 {} lines).Sound
      ∧ ((∀ l ∈ lastLine? lines, l.isDescription = false) →
        (Reading.after 1 {} lines).description = []) := by
  induction lines using List.reverseRecOn with
  | nil => exact ⟨Or.inl rfl, fun _ => rfl⟩
  | append_singleton lines l ih =>
      obtain ⟨hsound, hdescription⟩ := ih
      have hafter : Reading.after 1 {} (lines ++ [l]) =
          ((Reading.after 1 {} lines).next (1 + lines.length) l).1 := by
        rw [Reading.after_append]
        rfl
      have hlast : lastLine? (lines ++ [l]) =
          if l.isBlank then lastLine? lines else some l := by
        rw [lastLine?, firstLine?, List.reverse_append, List.reverse_singleton,
          List.singleton_append, List.find?_cons]
        cases l.isBlank with
        | true => rfl
        | false => rfl
      rw [hafter, hlast]
      cases hblank : l.isBlank with
      | true =>
          obtain ⟨hsame, hmode⟩ :=
            (Reading.after 1 {} lines).next_blank hblank (1 + lines.length)
          rw [if_pos rfl, Reading.Sound, hsame]
          exact ⟨hsound.imp_left hmode, hdescription⟩
      | false =>
          have hnext := Reading.next_description hsound hblank (1 + lines.length)
          rw [if_neg Bool.false_ne_true]
          refine ⟨(hnext.imp_right (·.2)).symm, fun h => hnext.resolve_right fun hl => ?_⟩
          rw [h l rfl] at hl
          exact Bool.false_ne_true hl.1

/-! ## Reading on -/

theorem entriesFrom_eq_upTo (number : Nat) (r : Reading) (lines : List Line) :
    entriesFrom number r lines =
      entriesUpTo number r lines ++ (r.after number lines).mode.finish := by
  have hnil := entriesFrom_append number r lines []
  rwa [List.append_nil] at hnil

/-- No body goes on with a line that is no deeper than its head. -/
theorem continuesBody_of_le {head : Head} {l : Line} (h : l.depth ≤ head.depth)
    (start : List Char) : continuesBody head start l = false := by
  have hdeep : ¬ head.depth + 1 < l.depth := by omega
  have hjust : l.depth ≠ head.depth + 1 := by omega
  simp [continuesBody, hdeep, hjust]

/-- A body is complete in front of a line that does not go on with it, and that line is read
as if nothing had come before. -/
theorem entriesFrom_bodyEnd {head : Head} {start : List Char} {lines : List Line}
    (hends : ∀ l ∈ firstLine? lines, continuesBody head start l = false) (number : Nat)
    (soFar : List Line) (blanks : Nat) :
    entriesFrom number ⟨.body head start soFar blanks, []⟩ lines =
      head.entry (bodyValue start soFar) :: entriesFrom number {} lines := by
  induction lines generalizing number blanks with
  | nil => rfl
  | cons l rest ih =>
      rw [firstLine?, List.find?_cons] at hends
      rw [entriesFrom_cons, entriesFrom_cons, Reading.next_body, Reading.next_lines]
      cases hblank : l.isBlank with
      | true =>
          rw [hblank] at hends
          exact ih hends (number + 1) (blanks + 1)
      | false =>
          rw [hblank] at hends
          rw [hends l rfl]
          rfl

/-- In front of a line outside of any declaration, what is being read is complete. -/
theorem entriesFrom_outside {r : Reading} (hfences : r.mode.isFenced = false)
    (hdescription : r.description = []) {lines : List Line}
    (houtside : ∀ l ∈ firstLine? lines, l.depth = 0) (number : Nat) :
    entriesFrom number r lines = r.mode.finish ++ entriesFrom number {} lines := by
  obtain ⟨mode, description⟩ := r
  subst hdescription
  cases mode with
  | lines => rfl
  | fenced head soFar => cases hfences
  | body head start soFar blanks =>
      refine entriesFrom_bodyEnd (fun l hl => continuesBody_of_le ?_ start) number soFar blanks
      rw [houtside l hl]
      exact Nat.zero_le _

/-- Blank lines at the start give no entries. -/
theorem entriesFrom_blanks {blanks : List Line} (h : ∀ l ∈ blanks, l.isBlank = true)
    (number : Nat) (lines : List Line) :
    entriesFrom number {} (blanks ++ lines) = entriesFrom (number + blanks.length) {} lines := by
  induction blanks generalizing number with
  | nil => rfl
  | cons l rest ih =>
      obtain ⟨hl, hrest⟩ := List.forall_mem_cons.mp h
      rw [List.cons_append, entriesFrom_cons, Reading.next_lines, if_pos hl, List.nil_append,
        ih hrest, List.length_cons,
        show number + 1 + rest.length = number + (rest.length + 1) by omega]

/-- The entries of two texts with a line feed in between. -/
theorem entries_append {a b : String} (h : Joinable a b) :
    entries (a ++ "\n" ++ b) = entries a ++ (entries b).map (Entry.shift (linesBefore a)) := by
  -- a blank line may stand between the lines of the two
  obtain ⟨extra, hextra, hlines⟩ : ∃ extra : List Line, (∀ l ∈ extra, l.isBlank = true)
      ∧ linesOf (a ++ "\n") = linesOf a ++ extra := by
    rcases linesOf_lineFeed a with heq | heq
    · exact ⟨[], nofun, by rw [heq, List.append_nil]⟩
    · exact ⟨[Line.blank], by simp [Line.isBlank, Line.blank], heq⟩
  have hlength : 1 + (linesOf a).length + extra.length = 1 + linesBefore a := by
    rw [← length_linesOf, hlines, List.length_append, Nat.add_assoc]
  have houtside : ∀ l ∈ firstLine? (extra ++ linesOf b), l.depth = 0 := by
    have hskip : firstLine? (extra ++ linesOf b) = firstLine? (linesOf b) := by
      rw [firstLine?, List.find?_append, List.find?_eq_none.mpr]
      · rfl
      · intro l hl
        rw [hextra l hl]
        exact Bool.false_ne_true
    rw [hskip]
    exact h.outside
  have hdescription := (Reading.description_after (linesOf a)).2 h.described
  have hfirst : entries a = entriesUpTo 1 {} (linesOf a)
      ++ (Reading.after 1 {} (linesOf a)).mode.finish := entriesFrom_eq_upTo 1 {} (linesOf a)
  calc entries (a ++ "\n" ++ b)
      = entriesFrom 1 {} (linesOf a ++ (extra ++ linesOf b)) := by
        rw [entries, linesOf_append a h.unmarked, hlines, List.append_assoc]
    _ = entries a ++ entriesFrom (1 + (linesOf a).length) {} (extra ++ linesOf b) := by
        rw [entriesFrom_append, entriesFrom_outside h.fences hdescription houtside, hfirst,
          List.append_assoc]
    _ = entries a ++ entriesFrom (1 + linesBefore a) {} (linesOf b) := by
        rw [entriesFrom_blanks hextra, hlength]
    _ = entries a ++ (entries b).map (Entry.shift (linesBefore a)) := by
        rw [entries, entries, ← entriesFrom_shift]
        rfl

/-! ## The depth of the first entry -/

/-- The depth of an entry whose value is still to come. -/
def Mode.depth? : Mode → Option Nat
  | .lines => none
  | .body head _ _ _ | .fenced head _ => some head.depth

/-- A step of the reader whose next entry, made now or later, has some depth. -/
def Opens (depth : Nat) (step : Reading × List Entry) : Prop :=
  step.2 = [] ∧ step.1.mode.depth? = some depth ∨ ∃ e rest, step.2 = e :: rest ∧ e.depth = depth

theorem startValue_opens (head : Head) (hasBody : Bool) (text : List Char) :
    Opens head.depth ({ mode := (startValue head hasBody text).1 },
      (startValue head hasBody text).2) := by
  rw [startValue]
  split
  · split
    · exact Or.inr ⟨_, _, rfl, rfl⟩
    · exact Or.inl ⟨rfl, rfl⟩
  · split
    · exact Or.inl ⟨rfl, rfl⟩
    · split
      · exact Or.inr ⟨_, _, rfl, rfl⟩
      · exact Or.inr ⟨_, _, rfl, rfl⟩

theorem readLine_opens (number : Nat) (description : List String) (l : Line) :
    Opens l.depth (readLine number description l) := by
  rw [readLine]
  cases Shape.of l.content with
  | description text => exact Or.inr ⟨_, _, rfl, rfl⟩
  | mention => exact Or.inr ⟨_, _, rfl, rfl⟩
  | keyword kind => exact Or.inr ⟨_, _, rfl, rfl⟩
  | flag key => exact Or.inr ⟨_, _, rfl, rfl⟩
  | unknown => exact Or.inr ⟨_, _, rfl, rfl⟩
  | property key separator value =>
      cases separator with
      | colon => exact Or.inr ⟨_, _, rfl, rfl⟩
      | equals => exact startValue_opens ⟨number, l.depth, .property key⟩ true value
  | declaration kind rest =>
      simp only
      split
      · exact Or.inr ⟨_, _, rfl, rfl⟩
      · split
        · exact Or.inr ⟨_, _, rfl, rfl⟩
        · exact startValue_opens ⟨number, l.depth, .declaration kind _ _⟩ _ _

theorem Reading.next_opens {r : Reading} {depth : Nat} (h : r.mode.depth? = some depth)
    (number : Nat) (l : Line) : Opens depth (r.next number l) := by
  obtain ⟨mode, description⟩ := r
  cases mode with
  | lines => cases h
  | body head start soFar blanks =>
      obtain rfl : head.depth = depth := Option.some.inj h
      rw [Reading.next_body]
      split
      · exact Or.inl ⟨rfl, rfl⟩
      · split
        · exact Or.inl ⟨rfl, rfl⟩
        · exact Or.inr ⟨_, _, rfl, rfl⟩
  | fenced head soFar =>
      obtain rfl : head.depth = depth := Option.some.inj h
      rw [Reading.next_fenced]
      split
      · exact Or.inr ⟨_, _, rfl, rfl⟩
      · exact Or.inl ⟨rfl, rfl⟩

/-- What has been opened comes before anything else. -/
theorem head?_entriesFrom_of_depth? {r : Reading} {depth : Nat}
    (h : r.mode.depth? = some depth) (number : Nat) (lines : List Line) :
    ∃ e rest, entriesFrom number r lines = e :: rest ∧ e.depth = depth := by
  induction lines generalizing number r with
  | nil =>
      obtain ⟨mode, description⟩ := r
      cases mode with
      | lines => cases h
      | body head start soFar blanks => exact ⟨_, [], rfl, Option.some.inj h⟩
      | fenced head soFar => exact ⟨_, [], rfl, Option.some.inj h⟩
  | cons l lines ih =>
      rw [entriesFrom_cons]
      rcases Reading.next_opens h number l with ⟨hnone, hmode⟩ | ⟨e, rest, hsome, hdepth⟩
      · rw [hnone]
        exact ih hmode (number + 1)
      · rw [hsome]
        exact ⟨e, _, rfl, hdepth⟩

/-- The first entry is as deep as the first line. -/
theorem depth_of_head?_entriesFrom (number : Nat) (lines : List Line) :
    ∀ e ∈ (entriesFrom number {} lines).head?, ∃ l ∈ firstLine? lines, l.depth = e.depth := by
  induction lines generalizing number with
  | nil => nofun
  | cons l lines ih =>
      intro e he
      rw [entriesFrom_cons] at he
      rw [firstLine?, List.find?_cons]
      cases hblank : l.isBlank with
      | true =>
          rw [Reading.next_lines, hblank] at he
          exact ih (number + 1) e he
      | false =>
          refine ⟨l, rfl, ?_⟩
          have hnext : ({} : Reading).next number l = readLine number [] l := by
            rw [Reading.next_lines, hblank]
            rfl
          rw [hnext] at he
          rcases readLine_opens number [] l with ⟨hnone, hmode⟩ | ⟨first, rest, hsome, hdepth⟩
          · obtain ⟨first, rest, hfirst, hdepth⟩ :=
              head?_entriesFrom_of_depth? hmode (number + 1) lines
            rw [hnone, List.nil_append, hfirst] at he
            rw [← hdepth, Option.some.inj he]
          · rw [hsome] at he
            rw [← hdepth, Option.some.inj he]

/-! ## Two trees side by side -/

/-- Where the test fails at the start of a list, only what stands in front of it is
taken. -/
theorem takeWhile_append_of_head? {α : Type} {p : α → Bool} {ys : List α}
    (h : ∀ y ∈ ys.head?, p y = false) (xs : List α) :
    (xs ++ ys).takeWhile p = xs.takeWhile p ∧ (xs ++ ys).dropWhile p = xs.dropWhile p ++ ys := by
  induction xs with
  | nil =>
      cases ys with
      | nil => exact ⟨rfl, rfl⟩
      | cons y ys =>
          have hy := h y rfl
          exact ⟨List.takeWhile_cons_of_neg (by simp [hy]),
            List.dropWhile_cons_of_neg (by simp [hy])⟩
  | cons x xs ih =>
      rw [List.cons_append, List.takeWhile_cons, List.takeWhile_cons, List.dropWhile_cons,
        List.dropWhile_cons, ih.1, ih.2]
      split
      · exact ⟨rfl, rfl⟩
      · exact ⟨rfl, rfl⟩

/-- No declaration takes in what stands outside. -/
theorem addEntry_append (e : Entry) {outside : List (Nat × Piece)}
    (h : ∀ p ∈ outside.head?, p.1 = 0) (below : List (Nat × Piece)) :
    addEntry e (below ++ outside) = addEntry e below ++ outside := by
  have hstops : ∀ p ∈ outside.head?, decide (e.depth < p.1) = false := by
    intro p hp
    rw [h p hp]
    exact decide_eq_false (Nat.not_lt_zero e.depth)
  obtain ⟨htake, hdrop⟩ := takeWhile_append_of_head? hstops below
  rw [addEntry, addEntry]
  cases e.item with
  | declaration kind name description value =>
      simp only [htake, hdrop, List.cons_append]
  | property key value => rfl
  | nameless kind => rfl
  | unrecognized content => rfl
  | nothing => rfl

theorem head?_pieces (es : List Entry) :
    (pieces es).head?.map (·.1) = es.head?.map (·.depth) := by
  cases es with
  | nil => rfl
  | cons e es =>
      rw [pieces, List.foldr_cons, addEntry]
      cases e.item with
      | declaration kind name description value => rfl
      | property key value => rfl
      | nameless kind => rfl
      | unrecognized content => rfl
      | nothing => rfl

theorem pieces_append {es' : List Entry} (h : ∀ e ∈ es'.head?, e.depth = 0)
    (es : List Entry) : pieces (es ++ es') = pieces es ++ pieces es' := by
  have hhead : ∀ p ∈ (pieces es').head?, p.1 = 0 := by
    intro p hp
    have hdepth : es'.head?.map (·.depth) = some p.1 := by
      rw [← head?_pieces, Option.mem_def.mp hp, Option.map_some]
    obtain ⟨e, he, hep⟩ := Option.map_eq_some_iff.mp hdepth
    rw [← hep, h e he]
  induction es with
  | nil => rfl
  | cons e es ih =>
      rw [List.cons_append, pieces, List.foldr_cons]
      exact (congrArg (addEntry e) ih).trans (addEntry_append e hhead (pieces es))

/-! ## A definition in two files -/

variable {a b : String}

/-- The declarations of a text are those of its two parts. -/
theorem children_parse_append (h : Joinable a b) (file : String) :
    (parse (a ++ "\n" ++ b) file).root.children =
      (parse a file).root.children
        ++ (parse b file).root.children.map (Node.shift (linesBefore a)) := by
  have hhead : ∀ e ∈ ((entries b).map (Entry.shift (linesBefore a))).head?, e.depth = 0 := by
    intro e he
    rw [List.head?_map, Option.mem_def, Option.map_eq_some_iff] at he
    obtain ⟨first, hfirst, rfl⟩ := he
    obtain ⟨l, hl, hdepth⟩ := depth_of_head?_entriesFrom 1 (linesOf b) first hfirst
    exact hdepth.symm.trans (h.outside l hl)
  have hchildren : ∀ text, (parse text file).root.children =
      Piece.nodes ((pieces (entries text)).map (·.2)) := fun _ => rfl
  have hnodes : ∀ ps ps' : List Piece,
      Piece.nodes (ps ++ ps') = Piece.nodes ps ++ Piece.nodes ps' :=
    fun _ _ => List.filterMap_append
  rw [hchildren, hchildren, hchildren, entries_append h, pieces_append hhead, pieces_shift,
    List.map_append, map_snd_shiftPieces, hnodes, Piece.nodes_shift]

/-- Two texts that are joined at a good place are read as they are read alone: their
declarations and reports stand one after the other, those of the second one some lines
further down, and their catalog is that of two documents. -/
theorem parse_append (h : Joinable a b) (file : String) :
    (parse (a ++ "\n" ++ b) file).root.children =
        (parse a file).root.children
          ++ (parse b file).root.children.map (Node.shift (linesBefore a))
      ∧ (parse (a ++ "\n" ++ b) file).diagnostics =
        (parse a file).diagnostics
          ++ (parse b file).diagnostics.map (Diagnostic.shift (linesBefore a))
      ∧ Catalog.ofDocuments [(parse (a ++ "\n" ++ b) file).root] =
        Catalog.ofDocuments [(parse a file).root, (parse b file).root] := by
  have hchildren := children_parse_append h file
  refine ⟨hchildren, ?_, Catalog.ofDocuments_joined (linesBefore a) hchildren⟩
  rw [parse, parse, parse]
  simp only [entries_append h, List.filterMap_append, filterMap_diagnostic?_shift]

/-- A table in two files, the first of which ends in the middle of a formula. -/
theorem parse_append_sales :
    Joinable "table Sales\n\tmeasure Total =\n\t\t\tSUM(Sales[Amount])\n"
      "table Sales\n\tcolumn Amount\n"
    ∧ Catalog.ofDocuments [(parse ("table Sales\n\tmeasure Total =\n\t\t\tSUM(Sales[Amount])\n"
          ++ "\n" ++ "table Sales\n\tcolumn Amount\n") "model").root] =
      Catalog.ofDocuments [
        (parse "table Sales\n\tmeasure Total =\n\t\t\tSUM(Sales[Amount])\n" "model").root,
        (parse "table Sales\n\tcolumn Amount\n" "model").root] := by
  have h : Joinable "table Sales\n\tmeasure Total =\n\t\t\tSUM(Sales[Amount])\n"
      "table Sales\n\tcolumn Amount\n" :=
    ⟨by decide +kernel, by decide +kernel, by decide +kernel, by decide +kernel⟩
  exact ⟨h, (parse_append h "model").2.2⟩

end Tabular.Definition
