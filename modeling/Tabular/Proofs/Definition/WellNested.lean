import Mathlib.Data.List.Nodup
import Tabular.Proofs.Definition.Nesting

/-!
# A definition is nested as its lines show it

The entries of a definition are those of the lines that are read by themselves, so what is
said of the nesting of entries is said of the lines of a file: which line is deeper than
which, and what stands between them. Blank lines do not count there, nor do the lines of a
value, however shallow they are between two fences.
-/

namespace Tabular.Definition

/-- The depth of a line, by its number. -/
def depthAt (lines : List Line) (number : Nat) : Nat := (lines.getD (number - 1) Line.blank).depth

/-- Whether a line counts: it is not blank and is not collected for a value. -/
def CountsIn (lines : List Line) (number : Nat) : Prop :=
  ∃ l, (l, number) ∈ lines.zipIdx 1 ∧ l.isBlank = false
    ∧ number ∉ (linesCollected lines).map (·.2)

/-- The declarations of a document from top to bottom, without the document. -/
def Document.nodes (d : Document) : List Node := Node.preorderAll d.root.children

/-- A document whose declarations are nested as the lines of a file show it. -/
structure WellNested (file : String) (lines : List Line) (d : Document) : Prop where
  /-- From top to bottom, each declaration stands further down than the one before. -/
  inOrder : d.nodes.Pairwise fun m n => m.line < n.line
  /-- Every declaration stands on a line of the file. -/
  onLines : ∀ n ∈ d.nodes, 1 ≤ n.line ∧ n.line ≤ lines.length
  /-- The declarations are those of the lines that declare something under a name and are
  read by themselves. -/
  declared : d.nodes.map Node.line =
    ((linesRead lines).filter fun x => x.1.declares).map (·.2)
  /-- A declaration is deeper than its parent, and no line that counts between the two is as
  shallow as the parent. -/
  encloses : ∀ p ∈ d.nodes, ∀ c ∈ p.children,
    Encloses (depthAt lines) (CountsIn lines) p.line c.line
  /-- The parent is the nearest declaration of which this is true. -/
  nearest : ∀ p ∈ d.nodes, ∀ c ∈ p.children, ∀ q ∈ d.nodes,
    Encloses (depthAt lines) (CountsIn lines) q.line c.line → q.line ≤ p.line
  /-- The document holds the declarations for which there is none. -/
  outermost : ∀ c ∈ d.root.children, ∀ q ∈ d.nodes,
    ¬ Encloses (depthAt lines) (CountsIn lines) q.line c.line
  /-- No declaration stands inside a value. -/
  uncollected : ∀ n ∈ d.nodes, n.line ∉ (linesCollected lines).map (·.2)
  /-- The reports are made on lines further and further down, none of them with a declaration
  or inside a value. -/
  reported : ∃ numbers : List Nat,
    d.diagnostics.map (·.location) = numbers.map (fun n => some ⟨file, some n⟩)
      ∧ numbers.Pairwise (· < ·)
      ∧ ∀ n ∈ numbers, n ∉ d.nodes.map Node.line ∧ n ∉ (linesCollected lines).map (·.2)

section Entries

variable {text : String} {e : Entry}

/-- An entry stands on a line that is read by itself, and is as deep. -/
theorem exists_read_of_mem_entries (he : e ∈ entries text) :
    ∃ l, (l, e.line) ∈ linesRead (linesOf text) ∧ e.depth = l.depth := by
  obtain ⟨⟨l, number⟩, hmem, hsaid⟩ := exists_right_of_mem (saidOn_entries text) he
  obtain rfl := hsaid.line
  exact ⟨l, hmem, hsaid.depth⟩

theorem depthAt_of_mem {lines : List Line} {l : Line} {number : Nat}
    (h : (l, number) ∈ lines.zipIdx 1) : depthAt lines number = l.depth := by
  obtain ⟨hlow, hhigh, heq⟩ := List.mem_zipIdx h
  rw [depthAt, heq]
  simp [List.getD, show number - 1 < lines.length by omega]

theorem mem_zipIdx_of_mem_linesRead {lines : List Line} {x : Line × Nat}
    (h : x ∈ linesRead lines) : x ∈ lines.zipIdx 1 :=
  (linesWhere_sublist Reading.reads 1 {} lines).subset h

theorem depthAt_of_mem_entries (he : e ∈ entries text) :
    depthAt (linesOf text) e.line = e.depth := by
  obtain ⟨l, hmem, hdepth⟩ := exists_read_of_mem_entries he
  rw [hdepth, depthAt_of_mem (mem_zipIdx_of_mem_linesRead hmem)]

theorem map_line_entries (text : String) :
    (entries text).map Entry.line = (linesRead (linesOf text)).map (·.2) := by
  have h := congrArg (List.map Mark.line) (map_mark_entries text)
  rwa [List.map_map, List.map_map] at h

theorem filter_declares_entries (text : String) :
    ((entries text).filter Entry.declares).map Entry.line =
      ((linesRead (linesOf text)).filter fun x => x.1.declares).map (·.2) := by
  have h := congrArg (fun ms => (ms.filter Mark.declares).map Mark.line) (map_mark_entries text)
  simp only [List.filter_map, List.map_map] at h
  exact h

theorem entries_pairwise_lt (text : String) :
    (entries text).Pairwise fun x y => x.line < y.line := by
  rw [← List.pairwise_map (f := Entry.line) (R := (· < ·)), map_line_entries,
    List.pairwise_map]
  exact linesWhere_pairwise_lt Reading.reads 1 {} (linesOf text)

/-- Two entries on one line are one. -/
theorem eq_of_line_eq {x y : Entry} (hx : x ∈ entries text) (hy : y ∈ entries text)
    (hline : x.line = y.line) : x = y := by
  have hnodup : ((entries text).map Entry.line).Nodup := by
    rw [List.Nodup, List.pairwise_map]
    exact (entries_pairwise_lt text).imp fun hlt => Nat.ne_of_lt hlt
  exact List.inj_on_of_nodup_map hnodup hx hy hline

/-- So an entry that declares nothing does not stand where one declares something. -/
theorem not_mem_declared_of_mem (he : e ∈ entries text) (hnot : e.declares = false) :
    e.line ∉ ((entries text).filter Entry.declares).map Entry.line := by
  intro hmem
  obtain ⟨x, hx, hline⟩ := List.mem_map.mp hmem
  obtain ⟨hx, hdeclares⟩ := List.mem_filter.mp hx
  rw [eq_of_line_eq hx he hline, hnot] at hdeclares
  cases hdeclares

/-- The lines that count are those that entries stand on. -/
theorem onLine_entries_iff (text : String) (number : Nat) :
    OnLine (entries text) number ↔ CountsIn (linesOf text) number := by
  have hreads : ∀ r l, Reading.reads r l = true → Reading.collects r l = false := by
    intro r l h
    simp only [Reading.reads, Bool.and_eq_true, Bool.not_eq_true'] at h
    exact h.2
  constructor
  · intro h
    obtain ⟨e, he, rfl⟩ := h
    obtain ⟨l, hmem, -⟩ := exists_read_of_mem_entries he
    obtain ⟨r, -, hread⟩ := mem_linesWhere_iff.mp hmem
    simp only [Reading.reads, Bool.and_eq_true, Bool.not_eq_true'] at hread
    exact ⟨l, mem_zipIdx_of_mem_linesRead hmem, hread.1, not_mem_linesWhere hreads hmem⟩
  · intro h
    obtain ⟨l, hmem, hblank, hcollected⟩ := h
    have hread : (l, number) ∈ linesRead (linesOf text) :=
      mem_linesWhere_reads hmem hblank hcollected
    have hnumber : number ∈ (entries text).map Entry.line := by
      rw [map_line_entries]
      exact List.mem_map_of_mem hread
    exact List.mem_map.mp hnumber

/-- The declarations of a document are those of the entries that declare. -/
theorem map_line_nodes (text file : String) :
    (parse text file).nodes.map Node.line =
      ((entries text).filter Entry.declares).map Entry.line :=
  (nestedIn_forest (entries text) (fun _ he => depthAt_of_mem_entries he)
    (entries_pairwise_lt text)).lines

/-- On one line there is one of them at most, and the document stands on none. -/
theorem eq_of_mem_preorder {file : String} {m n : Node}
    (hm : m ∈ (parse text file).root.preorder) (hn : n ∈ (parse text file).root.preorder)
    (hline : m.line = n.line) : m = n := by
  have hlines : (parse text file).root.preorder.map Node.line =
      0 :: ((entries text).filter Entry.declares).map Entry.line := by
    rw [← map_line_nodes text file, parse, documentOf, Node.preorder]
    rfl
  have hnodup : ((parse text file).root.preorder.map Node.line).Nodup := by
    rw [hlines, List.nodup_cons, List.Nodup, List.pairwise_map]
    refine ⟨fun hzero => ?_, ((entries_pairwise_lt text).sublist List.filter_sublist).imp
      fun hlt => Nat.ne_of_lt hlt⟩
    obtain ⟨e, he, hline⟩ := List.mem_map.mp hzero
    obtain ⟨hlow, -⟩ := line_of_mem_entriesFrom (List.mem_of_mem_filter he)
    omega
  exact List.inj_on_of_nodup_map hnodup hm hn hline

end Entries

/-- Only an entry that declares nothing is reported. -/
theorem Entry.diagnostic?_cases (e : Entry) (file : String) :
    e.diagnostic? file = none
      ∨ e.declares = false
        ∧ (e.diagnostic? file).map (·.location) = some (some ⟨file, some e.line⟩) := by
  obtain ⟨line, depth, item⟩ := e
  cases item with
  | declaration kind name description value => exact Or.inl rfl
  | property key value => exact Or.inl rfl
  | nameless kind => exact Or.inr ⟨rfl, rfl⟩
  | unrecognized content => exact Or.inr ⟨rfl, rfl⟩
  | nothing => exact Or.inl rfl

/-- The entries that are reported, and where. -/
theorem exists_reported (es : List Entry) (file : String) :
    ∃ told : List Entry, told.Sublist es ∧ (∀ e ∈ told, e.declares = false)
      ∧ (es.filterMap (·.diagnostic? file)).map (·.location) =
        (told.map Entry.line).map fun n => some ⟨file, some n⟩ := by
  induction es with
  | nil => exact ⟨[], List.Sublist.refl [], nofun, rfl⟩
  | cons e rest ih =>
      obtain ⟨told, hsub, hnot, heq⟩ := ih
      rw [List.filterMap_cons]
      rcases e.diagnostic?_cases file with hnone | ⟨hdeclares, hsome⟩
      · rw [hnone]
        exact ⟨told, hsub.cons e, hnot, heq⟩
      · obtain ⟨d, hd, hlocation⟩ := Option.map_eq_some_iff.mp hsome
        rw [hd]
        refine ⟨e :: told, hsub.cons_cons e, ?_, ?_⟩
        · intro x hx
          rcases List.mem_cons.mp hx with rfl | hx
          · exact hdeclares
          · exact hnot x hx
        · show d.location :: _ = _
          rw [hlocation, heq]
          rfl

/-- Every definition is read into a document that is nested as its lines show it. -/
theorem wellNested_parse (text file : String) :
    WellNested file (linesOf text) (parse text file) := by
  have hnested : NestedIn (depthAt (linesOf text)) (entries text) (parse text file).root.children :=
    nestedIn_forest (entries text) (fun e he => depthAt_of_mem_entries he)
      (entries_pairwise_lt text)
  have hencloses : ∀ p c, Encloses (depthAt (linesOf text)) (OnLine (entries text)) p c ↔
      Encloses (depthAt (linesOf text)) (CountsIn (linesOf text)) p c := by
    intro p c
    exact ⟨fun h => h.of_imp fun j hj _ _ => (onLine_entries_iff text j).mpr hj,
      fun h => h.of_imp fun j hj _ _ => (onLine_entries_iff text j).mp hj⟩
  have hlines : (parse text file).nodes.map Node.line =
      ((entries text).filter Entry.declares).map Entry.line := hnested.lines
  have huncollected : ∀ e ∈ entries text,
      e.line ∉ (linesCollected (linesOf text)).map (·.2) := by
    intro e he
    obtain ⟨-, -, -, hnot⟩ := (onLine_entries_iff text e.line).mp ⟨e, he, rfl⟩
    exact hnot
  refine ⟨?inOrder, ?onLines, ?declared, ?encloses, ?nearest, ?outermost, ?uncollected, ?reported⟩
  case inOrder =>
    rw [← List.pairwise_map (f := Node.line) (R := (· < ·)), hlines, List.pairwise_map]
    exact (entries_pairwise_lt text).sublist List.filter_sublist
  case onLines =>
    intro n hn
    obtain ⟨e, he, -, hline⟩ := hnested.exists_entry hn
    obtain ⟨l, hmem, -⟩ := exists_read_of_mem_entries he
    obtain ⟨hlow, hhigh, -⟩ := List.mem_zipIdx (mem_zipIdx_of_mem_linesRead hmem)
    rw [← hline]
    omega
  case declared => exact hlines.trans (filter_declares_entries text)
  case encloses =>
    intro p hp c hc
    exact (hencloses _ _).mp (hnested.encloses p hp c hc)
  case nearest =>
    intro p hp c hc q hq h
    obtain ⟨e, he, hdeclares, hline⟩ := hnested.exists_entry hq
    rw [← hline] at h ⊢
    exact hnested.nearest p hp c hc e he hdeclares ((hencloses _ _).mpr h)
  case outermost =>
    intro c hc q hq h
    obtain ⟨e, he, hdeclares, hline⟩ := hnested.exists_entry hq
    rw [← hline] at h
    exact hnested.outermost c hc e he hdeclares ((hencloses _ _).mpr h)
  case uncollected =>
    intro n hn
    obtain ⟨e, he, -, hline⟩ := hnested.exists_entry hn
    rw [← hline]
    exact huncollected e he
  case reported =>
    obtain ⟨told, hsub, hnot, hlocations⟩ := exists_reported (entries text) file
    refine ⟨told.map Entry.line, hlocations, ?_, fun n hn => ?_⟩
    · rw [List.pairwise_map]
      exact (entries_pairwise_lt text).sublist hsub
    · obtain ⟨e, he, rfl⟩ := List.mem_map.mp hn
      refine ⟨?_, huncollected e (hsub.subset he)⟩
      rw [hlines]
      exact not_mem_declared_of_mem (hsub.subset he) (hnot e he)

end Tabular.Definition
