import Tabular.Proofs.Definition.Fenced
import Tabular.Proofs.Definition.RawLines
import Tabular.Proofs.Text.Blank

/-!
# Deeper lines and their common depth

When lines are put deeper by the same number of tabs, so is the least depth among them, and
a value that has its common depth taken away stays the same. Blank lines have no depth and
are put nowhere.

One line of a value may have no tabs by force: the code that stands on the line of an
opening fence. It has lost the tabs of its line, so nothing is common to the value, and the
tabs of all further lines belong to the value as they are. Counting tabs shows that such a
value changes with the depth of the text, unless there is no further line with anything on
it.
-/

namespace Tabular.Definition

open Text

/-- A line that stands deeper. -/
def Line.indent (k : Nat) (l : Line) : Line :=
  if l.isBlank then l else { l with depth := l.depth + k }

namespace Line

variable (k : Nat) (l : Line)

@[simp] theorem text_indent : (l.indent k).text = l.text := by
  rw [indent]
  split
  · rfl
  · rfl

@[simp] theorem isBlank_indent : (l.indent k).isBlank = l.isBlank := by
  rw [isBlank, text_indent, isBlank]

@[simp] theorem content_indent : (l.indent k).content = l.content := by
  rw [content, text_indent, content]

theorem indent_of_blank {l : Line} (h : l.isBlank = true) : l.indent k = l := if_pos h

theorem depth_indent {l : Line} (h : l.isBlank = false) : (l.indent k).depth = l.depth + k := by
  rw [indent, if_neg (ne_true_of_eq_false h)]

end Line

theorem map_indent_of_blank {k : Nat} {lines : List Line} (h : ∀ l ∈ lines, l.isBlank = true) :
    lines.map (Line.indent k) = lines := by
  rw [List.map_congr_left fun l hl => Line.indent_of_blank k (h l hl), List.map_id']

/-! ## Lines as they are written -/

/-- A line behind tabs. What holds blanks only stays as it is. -/
def behindTabs (k : Nat) (l : List Char) : List Char :=
  if allBlank l then l else List.replicate k '\t' ++ l

theorem behindTabs_of_not_allBlank (k : Nat) {l : List Char} (h : ¬ allBlank l = true) :
    behindTabs k l = List.replicate k '\t' ++ l := if_neg h

theorem behindTabs_zero (l : List Char) : behindTabs 0 l = l := by
  rw [behindTabs]
  split
  · rfl
  · rfl

theorem not_mem_behindTabs (k : Nat) {l : List Char} (h : '\n' ∉ l) : '\n' ∉ behindTabs k l := by
  rw [behindTabs]
  split
  · exact h
  · intro hmem
    rcases List.mem_append.mp hmem with htab | hmem
    · exact absurd (List.eq_of_mem_replicate htab) (by decide)
    · exact h hmem

theorem isBlank_ofRaw (l : List Char) : (Line.ofRaw l).isBlank = allBlank l := by
  rw [Bool.eq_iff_iff, Line.isBlank, List.isEmpty_iff]
  constructor
  · intro h
    -- what is left of the line is tabs only, so it is nothing
    have htabs : allBlank (trimEnd l) = true := by
      refine List.all_eq_true.mpr fun c hc => ?_
      have htab := List.dropWhile_eq_nil_iff.mp h c hc
      rw [beq_iff_eq.mp htab]
      decide
    have hnil : trimEnd (trimEnd l) = [] := trimEnd_eq_nil_iff.mpr htabs
    rw [trimEnd_trimEnd] at hnil
    exact trimEnd_eq_nil_iff.mp hnil
  · intro h
    rw [Line.ofRaw, trimEnd_eq_nil_iff.mpr h]
    rfl

theorem ofRaw_behindTabs (k : Nat) (l : List Char) :
    Line.ofRaw (behindTabs k l) = (Line.ofRaw l).indent k := by
  have hblank := isBlank_ofRaw l
  by_cases h : allBlank l = true
  · rw [behindTabs, if_pos h, Line.indent, if_pos (hblank.trans h)]
  · have hnot : ¬ (Line.ofRaw l).isBlank = true := by rwa [hblank]
    have htabs : ∀ c ∈ List.replicate k '\t', (c == '\t') = true := by
      intro c hc
      rw [List.eq_of_mem_replicate hc]
      rfl
    rw [behindTabs_of_not_allBlank k h, Line.indent, if_neg hnot, Line.ofRaw, Line.ofRaw,
      trimEnd_append_of_not_allBlank h]
    simp only [List.takeWhile_append_of_pos htabs, List.dropWhile_append_of_pos htabs,
      List.length_append, List.length_replicate, Nat.add_comm k]

theorem map_ofRaw_behindTabs (k : Nat) (lines : List (List Char)) :
    (lines.map (behindTabs k)).map Line.ofRaw = (lines.map Line.ofRaw).map (Line.indent k) := by
  rw [List.map_map, List.map_map]
  exact List.map_congr_left fun l _ => ofRaw_behindTabs k l

/-! ## The common depth -/

/-- The depths of the lines that are not blank. -/
def depths (lines : List Line) : List Nat := (lines.filter (!·.isBlank)).map (·.depth)

theorem dedented_eq (lines : List Line) : dedented lines = lines.map fun l =>
    if l.isBlank then []
      else List.replicate (l.depth - (depths lines).min?.getD 0) '\t' ++ l.text :=
  rfl

theorem depths_indent (k : Nat) (lines : List Line) :
    depths (lines.map (Line.indent k)) = (depths lines).map (· + k) := by
  induction lines with
  | nil => rfl
  | cons l rest ih =>
      rw [depths] at ih ⊢
      rw [List.map_cons, List.filter_cons, Line.isBlank_indent, depths, List.filter_cons]
      cases hblank : l.isBlank with
      | true => exact ih
      | false =>
          simp only [Bool.not_false, if_true, List.map_cons, Line.depth_indent k hblank]
          rw [ih]
          rfl

theorem min?_map_add (k : Nat) (ds : List Nat) :
    (ds.map (· + k)).min? = ds.min?.map (· + k) := by
  cases hmin : ds.min? with
  | none =>
      rw [List.min?_eq_none_iff] at hmin
      subst hmin
      rfl
  | some d =>
      obtain ⟨hmem, hleast⟩ := List.min?_eq_some_iff.mp hmin
      rw [Option.map_some, List.min?_eq_some_iff]
      refine ⟨List.mem_map_of_mem hmem, fun b hb => ?_⟩
      obtain ⟨c, hc, rfl⟩ := List.mem_map.mp hb
      have := hleast c hc
      omega

/-- What is common to all lines of a value does not show in it. -/
theorem dedented_indent (k : Nat) (lines : List Line) :
    dedented (lines.map (Line.indent k)) = dedented lines := by
  rw [dedented_eq, dedented_eq, List.map_map, depths_indent, min?_map_add]
  refine List.map_congr_left fun l hl => ?_
  rw [Function.comp_apply, Line.isBlank_indent, Line.text_indent]
  cases hblank : l.isBlank with
  | true => rfl
  | false =>
      have hmem : l.depth ∈ depths lines := by
        refine List.mem_map_of_mem (List.mem_filter.mpr ⟨hl, ?_⟩)
        rw [hblank]
        rfl
      cases hmin : (depths lines).min? with
      | none =>
          rw [List.min?_eq_none_iff] at hmin
          rw [hmin] at hmem
          cases hmem
      | some least =>
          have hle := (List.min?_eq_some_iff.mp hmin).2 l.depth hmem
          simp only [Option.map_some, Option.getD_some, Line.depth_indent k hblank,
            show l.depth + k - (least + k) = l.depth - least by omega]

theorem dedent_indent (k : Nat) (lines : List Line) :
    dedent (lines.map (Line.indent k)) = dedent lines := by
  rw [dedent, dedented_indent, dedent]

theorem bodyValue_indent (k : Nat) (start : List Char) (body : List Line) :
    bodyValue start (body.map (Line.indent k)) = bodyValue start body := by
  cases body with
  | nil => rfl
  | cons l rest =>
      have h := dedent_indent k (l :: rest)
      rw [List.map_cons] at h ⊢
      cases start with
      | nil => simp only [bodyValue, h]
      | cons c start => simp only [bodyValue, h]

theorem fencedValue_indent (k : Nat) (body : List Line) :
    fencedValue (body.map (Line.indent k)) = fencedValue body := by
  rw [fencedValue, dedent_indent, fencedValue]

/-! ## Code on the line of the opening fence -/

theorem count_intercalate (lines : List (List Char)) :
    (List.intercalate ['\n'] lines).count '\t' = lines.flatten.count '\t' := by
  induction lines with
  | nil => rfl
  | cons l rest ih =>
      cases rest with
      | nil => simp [List.intercalate]
      | cons m rest =>
          rw [intercalate_cons_cons, List.count_append, List.count_cons_of_ne (by decide), ih,
            ← List.count_append]
          rfl

theorem count_dropWhile_feed (v : List Char) :
    (v.dropWhile (· == '\n')).count '\t' = v.count '\t' := by
  induction v with
  | nil => rfl
  | cons c v ih =>
      by_cases hc : (c == '\n') = true
      · have hne : c ≠ '\t' := by
          rw [beq_iff_eq.mp hc]
          decide
        simp only [List.dropWhile_cons, hc, if_true, ih]
        rw [List.count_cons_of_ne hne]
      · simp only [List.dropWhile_cons, hc, Bool.false_eq_true, if_false]

/-- The tabs of a value between fences are those of its lines. -/
theorem count_fencedValue (body : List Line) :
    (fencedValue body).toList.count '\t' = (dedented body).flatten.count '\t' := by
  rw [fencedValue, String.toList_ofList, List.count_reverse, count_dropWhile_feed,
    List.count_reverse, count_dropWhile_feed, dedent, count_intercalate]

/-- A line with its tabs. -/
def Line.written (l : Line) : List Char :=
  if l.isBlank then [] else List.replicate l.depth '\t' ++ l.text

/-- Below code on the line of the opening fence, lines keep their tabs. -/
theorem dedented_cons_of_depth_zero {first : Line} (hdepth : first.depth = 0)
    (hblank : first.isBlank = false) (body : List Line) :
    dedented (first :: body) = first.written :: body.map Line.written := by
  have hmin : (depths (first :: body)).min? = some 0 := by
    refine List.min?_eq_some_iff.mpr ⟨?_, fun b _ => Nat.zero_le b⟩
    rw [depths, List.filter_cons, hblank]
    exact List.mem_cons.mpr (Or.inl hdepth.symm)
  rw [dedented_eq, hmin]
  rfl

theorem count_written_indent (k : Nat) (body : List Line) :
    ((body.map (Line.indent k)).map Line.written).flatten.count '\t' =
      (body.map Line.written).flatten.count '\t' + k * body.countP (!·.isBlank) := by
  induction body with
  | nil => rfl
  | cons l rest ih =>
      simp only [List.map_cons, List.flatten_cons, List.count_append, List.countP_cons, ih]
      rw [Line.written, Line.written, Line.isBlank_indent, Line.text_indent]
      cases hblank : l.isBlank with
      | true => simp
      | false =>
          simp only [Bool.false_eq_true, if_false, Line.depth_indent k hblank,
            List.count_append, List.count_replicate_self, Bool.not_false, if_true, Nat.mul_add]
          omega

/-- A value with code on the line of its opening fence stays the same under a deeper text
exactly if nothing but blank lines follows. -/
theorem fencedValue_cons_indent_iff {k : Nat} (hk : 0 < k) {first : Line}
    (hdepth : first.depth = 0) (hblank : first.isBlank = false) (body : List Line) :
    fencedValue (first :: body.map (Line.indent k)) = fencedValue (first :: body)
      ↔ ∀ l ∈ body, l.isBlank = true := by
  constructor
  · intro h
    -- each line with anything on it has got `k` tabs, and all of them show in the value
    have hcount := congrArg (fun s : String => s.toList.count '\t') h
    simp only [count_fencedValue, dedented_cons_of_depth_zero hdepth hblank,
      List.flatten_cons, List.count_append] at hcount
    have hadded := count_written_indent k body
    have hnone : k * body.countP (!·.isBlank) = 0 := by omega
    have hzero : body.countP (!·.isBlank) = 0 := by
      rcases Nat.mul_eq_zero.mp hnone with hzero | hzero
      · omega
      · exact hzero
    intro l hl
    have hnot := List.countP_eq_zero.mp hzero l hl
    simpa using hnot
  · intro h
    rw [map_indent_of_blank h]

end Tabular.Definition
