import Tabular.Proofs.Definition.Append
import Tabular.Proofs.Definition.Dedent

/-!
# The body of a formula

A formula may stand below its declaration in one of two forms: behind tabs, or between two
fences. Both are read as the same text, whatever its lines look like: they may read as
properties, declarations, flags or descriptions. What follows is read as it is read when
there is no formula.
-/

namespace Tabular.Definition

open Text

/-! ## The text of a body -/

/-- The lines of a formula that can be written in both forms. -/
structure IsBody (lines : List (List Char)) : Prop where
  unbroken : ∀ l ∈ lines, '\n' ∉ l
  /-- It neither starts nor ends with a line of blanks. -/
  first : ∃ l ∈ lines.head?, allBlank l = false
  last : ∃ l ∈ lines.getLast?, allBlank l = false
  /-- The tabs in front of its lines are not common to all. -/
  untabbed : ∃ l ∈ lines, allBlank l = false ∧ l.head? ≠ some '\t'
  /-- No line ends with a fence. -/
  unfenced : ∀ l ∈ lines, ¬ fence <:+ trimEnd l

/-- The text of a formula: its lines without the blanks at their ends. -/
def bodyText (lines : List (List Char)) : String := ofRawLines (lines.map trimEnd)

theorem replicate_append_ofRaw (l : List Char) :
    List.replicate (Line.ofRaw l).depth '\t' ++ (Line.ofRaw l).text = trimEnd l := by
  have htabs : (trimEnd l).takeWhile (· == '\t') =
      List.replicate ((trimEnd l).takeWhile (· == '\t')).length '\t' := by
    refine List.eq_replicate_of_mem fun c hc => ?_
    have htab := List.mem_takeWhile_imp (p := (· == '\t')) hc
    exact beq_iff_eq.mp htab
  rw [Line.ofRaw, ← htabs, List.takeWhile_append_dropWhile]

theorem depth_ofRaw_of_untabbed {l : List Char} (h : l.head? ≠ some '\t') :
    (Line.ofRaw l).depth = 0 := by
  have hprefix : trimEnd l <+: l := by
    rw [trimEnd, ← List.reverse_suffix, List.reverse_reverse]
    exact List.dropWhile_suffix isBlank
  rw [Line.ofRaw]
  cases hkept : trimEnd l with
  | nil => rfl
  | cons c rest =>
      obtain ⟨tail, htail⟩ := hkept ▸ hprefix
      have htab : (c == '\t') = false := by
        rw [beq_eq_false_iff_ne]
        intro hc
        rw [← htail, hc] at h
        exact h rfl
      simp only [List.takeWhile_cons, htab, Bool.false_eq_true, if_false, List.length_nil]

theorem exists_intercalate_cons (l : List Char) (rest : List (List Char)) :
    ∃ tail, List.intercalate ['\n'] (l :: rest) = l ++ tail := by
  cases rest with
  | nil => exact ⟨[], by simp [List.intercalate]⟩
  | cons m rest => exact ⟨_, intercalate_cons_cons l m rest⟩

theorem exists_intercalate_append (lines : List (List Char)) (l : List Char) :
    ∃ front, List.intercalate ['\n'] (lines ++ [l]) = front ++ l := by
  cases lines with
  | nil => exact ⟨[], by simp [List.intercalate]⟩
  | cons m rest =>
      refine ⟨List.intercalate ['\n'] (m :: rest) ++ ['\n'], ?_⟩
      rw [intercalate_append_singleton (List.cons_ne_nil m rest), List.append_assoc,
        List.singleton_append]

theorem dropWhile_feed_of_head? {cs : List Char} (h : cs.head? ≠ some '\n') :
    cs.dropWhile (· == '\n') = cs := by
  cases cs with
  | nil => rfl
  | cons c cs =>
      refine List.dropWhile_cons_of_neg fun hfeed => h ?_
      rw [beq_iff_eq.mp hfeed]
      rfl

section Values

variable {lines : List (List Char)} (h : IsBody lines)

include h

/-- Without the tabs common to all, a formula has its lines as they were. -/
theorem dedent_map_ofRaw :
    dedent (lines.map Line.ofRaw) = List.intercalate ['\n'] (lines.map trimEnd) := by
  have hmin : (depths (lines.map Line.ofRaw)).min? = some 0 := by
    obtain ⟨l, hl, hblank, htab⟩ := h.untabbed
    refine List.min?_eq_some_iff.mpr ⟨?_, fun b _ => Nat.zero_le b⟩
    rw [← depth_ofRaw_of_untabbed htab]
    refine List.mem_map_of_mem (List.mem_filter.mpr ⟨List.mem_map_of_mem hl, ?_⟩)
    rw [isBlank_ofRaw, hblank]
    rfl
  rw [dedent, dedented_eq, hmin, List.map_map]
  refine congrArg (List.intercalate ['\n']) (List.map_congr_left fun l _ => ?_)
  rw [Function.comp_apply, isBlank_ofRaw]
  split
  · next hblank => exact (trimEnd_eq_nil_iff.mpr hblank).symm
  · exact replicate_append_ofRaw l

theorem bodyValue_behindTabs (k : Nat) :
    bodyValue [] ((lines.map (behindTabs k)).map Line.ofRaw) = some (bodyText lines) := by
  have hdedent := dedent_map_ofRaw h
  obtain ⟨l, hl, -⟩ := h.first
  obtain ⟨rest, rfl⟩ := List.head?_eq_some_iff.mp hl
  rw [map_ofRaw_behindTabs, bodyValue_indent, bodyText, ofRawLines, ← hdedent]
  rfl

/-- No line feeds stand at the ends of a formula. -/
theorem fencedValue_behindTabs (k : Nat) :
    fencedValue ((lines.map (behindTabs k)).map Line.ofRaw) = bodyText lines := by
  have hkept : ∀ l ∈ lines, allBlank l = false →
      trimEnd l ≠ [] ∧ ∀ c ∈ trimEnd l, c ≠ '\n' := by
    intro l hl hblank
    refine ⟨fun hnil => ?_, fun c hc hfeed => ?_⟩
    · rw [trimEnd_eq_nil_iff.mp hnil] at hblank
      cases hblank
    · have hmem : c ∈ l := by
        rw [trimEnd, List.mem_reverse] at hc
        exact List.mem_reverse.mp ((List.dropWhile_suffix isBlank).subset hc)
      exact h.unbroken l hl (hfeed ▸ hmem)
  have hfirst : (List.intercalate ['\n'] (lines.map trimEnd)).head? ≠ some '\n' := by
    obtain ⟨l, hl, hblank⟩ := h.first
    obtain ⟨hne, hfeed⟩ := hkept l (List.mem_of_head? hl) hblank
    obtain ⟨rest, rfl⟩ := List.head?_eq_some_iff.mp hl
    obtain ⟨tail, htail⟩ := exists_intercalate_cons (trimEnd l) (rest.map trimEnd)
    rw [List.map_cons, htail, List.head?_append_of_ne_nil _ hne]
    exact fun hhead => hfeed _ (List.mem_of_head? hhead) rfl
  have hlast : (List.intercalate ['\n'] (lines.map trimEnd)).getLast? ≠ some '\n' := by
    obtain ⟨l, hl, hblank⟩ := h.last
    obtain ⟨hne, hfeed⟩ := hkept l (List.mem_of_getLast? hl) hblank
    obtain ⟨rest, rfl⟩ := List.getLast?_eq_some_iff.mp hl
    obtain ⟨front, hfront⟩ := exists_intercalate_append (rest.map trimEnd) (trimEnd l)
    rw [List.map_append, List.map_singleton, hfront, List.getLast?_append_of_ne_nil _ hne]
    exact fun hend => hfeed _ (List.mem_of_getLast? hend) rfl
  rw [map_ofRaw_behindTabs, fencedValue_indent, fencedValue, dedent_map_ofRaw h]
  simp only [dropWhile_feed_of_head? hfirst]
  rw [dropWhile_feed_of_head? (by rwa [List.head?_reverse]), List.reverse_reverse]
  rfl

end Values

/-! ## The lines of a body -/

theorem ofRaw_of_allBlank {l : List Char} (h : allBlank l = true) : Line.ofRaw l = Line.blank := by
  rw [Line.ofRaw, trimEnd_eq_nil_iff.mpr h]
  rfl

/-- A line with nothing but a fence closes one. -/
theorem beforeEnd?_ofRaw_closing {closing : List Char} (h : trim closing = fence) :
    ∃ before, beforeEnd? fence (Line.ofRaw closing).text = some before ∧ trimEnd before = [] := by
  have hkept : ¬ allBlank (trimStart closing) = true := by
    intro hblank
    rw [trim, trimEnd_eq_nil_iff.mpr hblank] at h
    cases h
  have hsplit : closing = closing.takeWhile isBlank ++ trimStart closing :=
    List.takeWhile_append_dropWhile.symm
  have htrimmed : trimEnd closing = closing.takeWhile isBlank ++ fence := by
    rw [hsplit, trimEnd_append_of_not_allBlank hkept, ← hsplit]
    exact congrArg (_ ++ ·) h
  refine ⟨(closing.takeWhile isBlank).dropWhile (· == '\t'), beforeEnd?_eq_some_iff.mpr ?_, ?_⟩
  · rw [Line.ofRaw, htrimmed]
    simp only [List.dropWhile_append]
    split
    · next hnil =>
        rw [List.isEmpty_iff.mp hnil]
        rfl
    · rfl
  · refine trimEnd_eq_nil_iff.mpr (List.all_eq_true.mpr fun c hc => ?_)
    exact List.mem_takeWhile_imp ((List.dropWhile_suffix _).subset hc)

/-- Far enough below a head, all lines go on with the body. -/
theorem continuesBody_behindTabs {head : Head} {tabs : Nat} (htabs : head.depth + 1 < tabs)
    (lines : List (List Char)) :
    ∀ l ∈ (lines.map (behindTabs tabs)).map Line.ofRaw,
      l = Line.blank ∨ l.isBlank = false ∧ continuesBody head [] l = true := by
  intro l hl
  rw [map_ofRaw_behindTabs, List.map_map] at hl
  obtain ⟨m, -, rfl⟩ := List.mem_map.mp hl
  rw [Function.comp_apply]
  cases hblank : allBlank m with
  | true =>
      refine Or.inl ?_
      rw [ofRaw_of_allBlank hblank]
      rfl
  | false =>
      have hkept : (Line.ofRaw m).isBlank = false := by rw [isBlank_ofRaw, hblank]
      have hdeep : head.depth + 1 < (Line.ofRaw m).depth + tabs := by omega
      refine Or.inr ⟨by rw [Line.isBlank_indent, hkept], ?_⟩
      rw [continuesBody, Line.depth_indent tabs hkept]
      simp [hdeep]

section Lines

variable {lines : List (List Char)} (h : IsBody lines) (tabs : Nat)

include h

theorem IsBody.ne_nil : lines ≠ [] := by
  obtain ⟨l, hl, -⟩ := h.first
  intro hnil
  rw [hnil] at hl
  cases hl

theorem IsBody.not_mem_behindTabs : ∀ l ∈ lines.map (behindTabs tabs), '\n' ∉ l := by
  intro l hl
  obtain ⟨m, hm, rfl⟩ := List.mem_map.mp hl
  exact Definition.not_mem_behindTabs tabs (h.unbroken m hm)

theorem isBlank_getLast?_behindTabs :
    ∀ l ∈ ((lines.map (behindTabs tabs)).map Line.ofRaw).getLast?, l.isBlank = false := by
  intro l hl
  obtain ⟨m, hm, hblank⟩ := h.last
  rw [map_ofRaw_behindTabs, List.getLast?_map, List.getLast?_map, Option.mem_def.mp hm] at hl
  rw [← Option.some.inj hl, Line.isBlank_indent, isBlank_ofRaw, hblank]

theorem beforeEnd?_behindTabs :
    ∀ l ∈ (lines.map (behindTabs tabs)).map Line.ofRaw, beforeEnd? fence l.text = none := by
  intro l hl
  rw [map_ofRaw_behindTabs, List.map_map] at hl
  obtain ⟨m, hm, rfl⟩ := List.mem_map.mp hl
  rw [Function.comp_apply, Line.text_indent, Option.eq_none_iff_forall_ne_some]
  intro before hbefore
  have hsuffix : fence <:+ (Line.ofRaw m).text :=
    ⟨before, (beforeEnd?_eq_some_iff.mp hbefore).symm⟩
  exact h.unfenced m hm (hsuffix.trans (List.dropWhile_suffix _))

end Lines

/-! ## Reading a body -/

/-- Lines that go on with a body, up to one that does not. -/
theorem entriesFrom_body {head : Head} {start : List Char} {body rest : List Line}
    (hcontinues : ∀ l ∈ body,
      l = Line.blank ∨ l.isBlank = false ∧ continuesBody head start l = true)
    (hlast : ∀ l ∈ body.getLast?, l.isBlank = false) (hne : body ≠ [])
    (hends : ∀ l ∈ firstLine? rest, continuesBody head start l = false) (number : Nat)
    (soFar : List Line) (blanks : Nat) :
    entriesFrom number ⟨.body head start soFar blanks, []⟩ (body ++ rest) =
      head.entry (bodyValue start (soFar ++ List.replicate blanks Line.blank ++ body))
        :: entriesFrom (number + body.length) {} rest := by
  induction body generalizing number soFar blanks with
  | nil => exact absurd rfl hne
  | cons l body ih =>
      obtain ⟨hfirst, hlater⟩ := List.forall_mem_cons.mp hcontinues
      have hnumber : number + 1 + body.length = number + (body.length + 1) := by omega
      have hlast' : body ≠ [] → ∀ m ∈ body.getLast?, m.isBlank = false := by
        intro hbody m hm
        refine hlast m ?_
        rw [List.getLast?_cons, Option.mem_def.mp hm]
        rfl
      rw [List.cons_append, entriesFrom_cons, Reading.next_body, List.length_cons]
      rcases hfirst with rfl | ⟨hblank, hgoes⟩
      · -- a line of blanks is not the last one
        have hbody : body ≠ [] := by
          intro hnil
          have hblank := hlast Line.blank (by rw [hnil]; rfl)
          cases hblank
        have hgrown : soFar ++ List.replicate (blanks + 1) Line.blank ++ body =
            soFar ++ List.replicate blanks Line.blank ++ Line.blank :: body := by
          simp [List.replicate_succ']
        rw [if_pos (show Line.blank.isBlank = true from rfl), List.nil_append,
          ih hlater (hlast' hbody) hbody, hnumber, hgrown]
      · rw [hblank, if_neg Bool.false_ne_true, hgoes, if_pos rfl, List.nil_append]
        by_cases hbody : body = []
        · subst hbody
          rw [List.nil_append, entriesFrom_bodyEnd hends]
          rfl
        · rw [ih hlater (hlast' hbody) hbody, hnumber, List.replicate_zero, List.append_nil,
            List.append_assoc _ [l], List.singleton_append]

/-- Lines that are read from where a text starts. -/
def linesIn (raw : List (List Char)) : List Line := (withoutMarkInFirst raw).map Line.ofRaw

theorem length_linesIn (raw : List (List Char)) : (linesIn raw).length = raw.length := by
  cases raw with
  | nil => rfl
  | cons l rest => simp [linesIn, withoutMarkInFirst]

/-- The description that waits behind some lines. -/
def waiting (raw : List (List Char)) : List String := (Reading.after 1 {} (linesIn raw)).description

/-- What stands in front of a line that is read by itself says what it says alone. -/
theorem entries_read {before after : List (List Char)} {line : List Char}
    (hbreaks : ∀ l ∈ before ++ line :: after, '\n' ∉ l) (hmark : withoutMark line = line)
    (hreads : (Reading.after 1 {} (linesIn before)).reads (Line.ofRaw line) = true) :
    entries (ofRawLines (before ++ line :: after)) =
      entriesFrom 1 {} (linesIn before)
        ++ ((readLine (before.length + 1) (waiting before) (Line.ofRaw line)).2
          ++ entriesFrom (before.length + 2)
              (readLine (before.length + 1) (waiting before) (Line.ofRaw line)).1
              (after.map Line.ofRaw)) := by
  have hlines : (withoutMarkInFirst (before ++ line :: after)).map Line.ofRaw =
      linesIn before ++ Line.ofRaw line :: after.map Line.ofRaw := by
    cases before with
    | nil =>
        rw [List.nil_append, withoutMarkInFirst, hmark]
        rfl
    | cons l before =>
        rw [List.cons_append, withoutMarkInFirst, linesIn, withoutMarkInFirst, List.map_cons,
          List.map_cons, List.map_append]
        rfl
  have hne : before ++ line :: after ≠ [] :=
    List.append_ne_nil_of_right_ne_nil _ (List.cons_ne_nil _ _)
  rw [entries_eq_entriesFrom, rawLines_ofRawLines hne hbreaks, hlines, entriesFrom_append,
    entriesFrom_cons, Reading.next_of_reads hreads, length_linesIn,
    entriesFrom_eq_upTo 1 {} (linesIn before), List.append_assoc, List.append_assoc,
    Nat.add_comm 1 before.length, waiting]

end Tabular.Definition
