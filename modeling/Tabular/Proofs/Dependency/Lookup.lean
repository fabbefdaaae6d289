import Tabular.Definition.Document
import Tabular.Proofs.Catalog.Rows
import Tabular.Proofs.Dependency.Nodes
import Tabular.Proofs.Formula.Additions

/-!
# Three ways to look up an object

A catalog finds an object by its table and then by its name. The index of its names goes
by a lowercase key, in which the two are joined, and the graph goes by that key to a node
with a second one. All three are asked for the same table and name, and should answer
with the same object.

They do for objects that have both names, and no bar in either, as long as an object that
is found under its lowercase key is the one that the graph has under its other key. With
a bar in a name they never agree, whatever else the catalog holds: the key can be taken
apart in a second place, and what is asked for there is not in the catalog or is another
object, while the index still finds the first one.
-/

namespace Tabular

open Text

/-- Whether an object has a table and a name. -/
def ObjectRef.hasNames (r : ObjectRef) : Bool := !(r.table.isEmpty || r.name.isEmpty)

theorem ObjectRef.hasNames_iff {r : ObjectRef} :
    r.hasNames = true ↔ r.table ≠ "" ∧ r.name ≠ "" := by
  rw [hasNames, Bool.not_eq_true', Bool.or_eq_false_iff, ← Bool.not_eq_true,
    ← Bool.not_eq_true, String.isEmpty_iff, String.isEmpty_iff]

theorem isNamed_of_find? {rows : List ObjectRef} {table name : String} {r : ObjectRef}
    (h : rows.find? (·.isNamed table name) = some r) :
    fold r.table = fold table ∧ fold r.name = fold name :=
  ObjectRef.isNamed_iff.mp (List.find?_some (p := fun r : ObjectRef => r.isNamed table name) h)

/-- Among some objects, those that have names are found under their lowercase keys as they
are found by their two names, exactly when all have names without a bar. -/
theorem find?_normalized_eq_iff {rows : List ObjectRef} :
    (∀ table name, ((rows.filter (·.hasNames)).find? fun r =>
        r.normalized = normalizedKey table name) =
      rows.find? (·.isNamed table name)) ↔ ∀ r ∈ rows, r.Unbarred := by
  constructor
  · intro h r hr
    obtain ⟨first, hfirst⟩ : ∃ first, rows.find? (·.isNamed r.table r.name) = some first := by
      rw [← Option.isSome_iff_exists, List.find?_isSome]
      exact ⟨r, hr, ObjectRef.isNamed_iff.mpr ⟨rfl, rfl⟩⟩
    obtain ⟨htable, hname⟩ := isNamed_of_find? hfirst
    have hkey := (h r.table r.name).trans hfirst
    have hnames := (List.mem_filter.mp (List.mem_of_find?_eq_some hkey)).2
    rw [ObjectRef.hasNames_iff, ne_eq, ne_eq, ← fold_eq_empty_iff, htable, fold_eq_empty_iff,
      ← @fold_eq_empty_iff first.name, hname, fold_eq_empty_iff] at hnames
    have hbar : ¬ ('|' ∈ r.table.toList ∨ '|' ∈ r.name.toList) := by
      intro hbar
      obtain ⟨table, name, hsame, hother⟩ := ObjectRef.exists_normalizedKey_eq hbar
      -- the same object is found under the other two names
      have hfound : rows.find? (·.isNamed table name) = some first := by
        rw [← h table name, hsame]
        exact hkey
      exact hother ((isNamed_of_find? hfound).1.symm.trans htable)
    rw [not_or] at hbar
    exact ⟨hnames.1, hnames.2, hbar.1, hbar.2⟩
  · intro h table name
    have hall : rows.filter (·.hasNames) = rows := List.filter_eq_self.mpr fun r hr =>
      ObjectRef.hasNames_iff.mpr ⟨(h r hr).table_ne, (h r hr).name_ne⟩
    rw [hall]
    refine List.find?_congr fun r hr => ?_
    rw [Bool.eq_iff_iff, decide_eq_true_eq]
    exact (h r hr).normalized_eq_iff

namespace Formula

open Ordered

/-! ## The index of a catalog -/

/-- What a catalog adds to its index. -/
def Addition.ofCatalog (c : Catalog) : List Addition :=
  c.measures.map (fun m => .measure m.table m.name)
    ++ c.columns.map (fun col => .column col.table col.name)
    ++ c.tables.map fun t => .table t.name

theorem Index.ofCatalog_eq (c : Catalog) :
    Index.ofCatalog c = Index.ofAdditions (Addition.ofCatalog c) := by
  simp only [Index.ofCatalog, Index.ofRows, Index.ofAdditions, Addition.ofCatalog,
    List.foldl_append, List.foldl_map]
  rfl

theorem Index.filledBy_ofCatalog (c : Catalog) :
    (Index.ofCatalog c).FilledBy (Addition.ofCatalog c) := by
  rw [ofCatalog_eq]
  exact filledBy_ofAdditions _

theorem Addition.filterMap_row? {α : Type} (ref : α → ObjectRef) (xs : List α) :
    xs.filterMap (fun x => row? (ref x).table (ref x).name) =
      (xs.map ref).filter (·.hasNames) := by
  rw [List.filter_map, ← List.filterMap_eq_filter, List.map_filterMap]
  refine congrArg (List.filterMap · xs) (funext fun x => ?_)
  rw [row?, Option.guard, Function.comp_apply, ObjectRef.hasNames]
  cases (ref x).table.isEmpty || (ref x).name.isEmpty with
  | true => rfl
  | false => rfl

theorem Addition.measures_ofCatalog (c : Catalog) :
    (ofCatalog c).filterMap (·.measure?) = (c.measures.map (·.ref)).filter (·.hasNames) := by
  rw [ofCatalog, List.filterMap_append, List.filterMap_append, List.filterMap_map,
    List.filterMap_map, List.filterMap_map, ← filterMap_row?]
  simp only [Function.comp_def, measure?, List.filterMap_none, List.append_nil]
  rfl

theorem Addition.columns_ofCatalog (c : Catalog) :
    (ofCatalog c).filterMap (·.column?) = (c.columns.map (·.ref)).filter (·.hasNames) := by
  rw [ofCatalog, List.filterMap_append, List.filterMap_append, List.filterMap_map,
    List.filterMap_map, List.filterMap_map, ← filterMap_row?]
  simp only [Function.comp_def, column?, List.filterMap_none, List.append_nil, List.nil_append]
  rfl

/-- Only tables of the catalog are added. -/
theorem Addition.exists_table {c : Catalog} (h : Orderly c.tables) {name : String}
    (hname : name ∈ (ofCatalog c).filterMap (·.table?)) : ∃ t ∈ c.tables, t.name = name := by
  have hrow : ∀ {owner name table : String}, (row? owner name).map ObjectRef.table = some table →
      table = owner := by
    intro owner name table htable
    rw [row?] at htable
    split at htable
    · cases htable
    · exact (Option.some.inj htable).symm
  obtain ⟨a, ha, htable⟩ := List.mem_filterMap.mp hname
  rw [ofCatalog, List.mem_append, List.mem_append] at ha
  rcases ha with (ha | ha) | ha
  · obtain ⟨m, hm, rfl⟩ := List.mem_map.mp ha
    obtain ⟨t, ht, hmt⟩ := List.mem_flatMap.mp hm
    exact ⟨t, ht, by rw [hrow htable, (h.owns t ht).measures m hmt]⟩
  · obtain ⟨col, hcol, rfl⟩ := List.mem_map.mp ha
    obtain ⟨t, ht, hct⟩ := List.mem_flatMap.mp hcol
    exact ⟨t, ht, by rw [hrow htable, (h.owns t ht).columns col hct]⟩
  · obtain ⟨t, ht, rfl⟩ := List.mem_map.mp ha
    rw [table?] at htable
    split at htable
    · cases htable
    · exact ⟨t, ht, Option.some.inj htable⟩

/-- The index spells the tables of its catalog as they are. -/
theorem Index.spelling_ofCatalog {c : Catalog} (h : Orderly c.tables) {t : Table}
    (ht : t ∈ c.tables) : (Index.ofCatalog c).spelling t.name = t.name := by
  rw [spelling, Index.table?, (filledBy_ofCatalog c).tables]
  cases hfind : ((Addition.ofCatalog c).filterMap (·.table?)).find? fun s => fold s = fold t.name with
  | none => rfl
  | some name =>
      have hsame := List.find?_some hfind
      rw [decide_eq_true_eq] at hsame
      obtain ⟨s, hs, rfl⟩ := Addition.exists_table h (List.mem_of_find?_eq_some hfind)
      rw [Option.getD_some, h.eq_of_fold_eq hs ht hsame]

/-- Where tables are spelled as they are, objects are found as they are. -/
theorem Owned.FilledBy.get?_eq {o : Owned} {spelling : String → String}
    {rows : List ObjectRef} (h : o.FilledBy spelling rows)
    (hspelling : ∀ r ∈ rows, spelling r.table = r.table) (table name : String) :
    o.get? table name = rows.find? fun r => r.normalized = normalizedKey table name := by
  rw [Owned.get?, h.refs]
  cases hfind : rows.find? fun r => r.normalized = normalizedKey table name with
  | none => rfl
  | some r => rw [Option.map_some, hspelling r (List.mem_of_find?_eq_some hfind)]

/-- The objects of the tables are spelled in the index as they are. -/
theorem Index.spelling_of_mem {c : Catalog} (h : Orderly c.tables) {α : Type}
    {objects : Table → List α} {ref : α → ObjectRef}
    (howner : ∀ t ∈ c.tables, ∀ x ∈ objects t, (ref x).table = t.name) {r : ObjectRef}
    (hr : r ∈ ((c.tables.flatMap objects).map ref).filter (·.hasNames)) :
    (Index.ofCatalog c).spelling r.table = r.table := by
  obtain ⟨x, hx, rfl⟩ := List.mem_map.mp (List.mem_filter.mp hr).1
  obtain ⟨t, ht, hxt⟩ := List.mem_flatMap.mp hx
  rw [howner t ht x hxt, spelling_ofCatalog h ht]

theorem Index.measures_ofCatalog {c : Catalog} (h : Orderly c.tables) (table name : String) :
    (Index.ofCatalog c).measures.get? table name =
      ((c.measures.map (·.ref)).filter (·.hasNames)).find? fun r =>
        r.normalized = normalizedKey table name := by
  have hfilled := (filledBy_ofCatalog c).measures
  rw [Addition.measures_ofCatalog] at hfilled
  exact hfilled.get?_eq
    (fun _ hr => spelling_of_mem h (fun t ht => (h.owns t ht).measures) hr) table name

theorem Index.columns_ofCatalog {c : Catalog} (h : Orderly c.tables) (table name : String) :
    (Index.ofCatalog c).columns.get? table name =
      ((c.columns.map (·.ref)).filter (·.hasNames)).find? fun r =>
        r.normalized = normalizedKey table name := by
  have hfilled := (filledBy_ofCatalog c).columns
  rw [Addition.columns_ofCatalog] at hfilled
  exact hfilled.get?_eq
    (fun _ hr => spelling_of_mem h (fun t ht => (h.owns t ht).columns) hr) table name

end Formula

namespace Dependency

open Formula

/-- The catalog, its index and its graph find the same objects. -/
structure LookupsAgree (c : Catalog) : Prop where
  measure : ∀ table name, (Index.ofCatalog c).measures.get? table name =
    (c.findMeasure? table name).map (·.ref)
  column : ∀ table name, (Index.ofCatalog c).columns.get? table name =
    (c.findColumn? table name).map (·.ref)
  /-- A measure comes before a column. -/
  node : ∀ table name, (Graph.ofCatalog c).find? table name =
    ((c.findMeasure? table name).map Node.ofMeasure).or
      ((c.findColumn? table name).map Node.ofColumn)

/-- The keys of a catalog tell its objects apart as their names do. -/
structure KeysFaithful (c : Catalog) : Prop where
  unbarred : ∀ n ∈ Node.ofCatalog c, n.object.Unbarred
  /-- What is found under a lowercase key is found under its other key. -/
  first : ∀ n, firstNamed? c n.object.normalized = some n → firstWithKey? c n.key = some n

variable {c : Catalog}

theorem forall_mem_ofCatalog {p : ObjectRef → Prop} :
    (∀ n ∈ Node.ofCatalog c, p n.object) ↔
      (∀ r ∈ c.measures.map (·.ref), p r) ∧ ∀ r ∈ c.columns.map (·.ref), p r := by
  rw [Node.ofCatalog, List.forall_mem_append, List.forall_mem_map, List.forall_mem_map,
    List.forall_mem_map, List.forall_mem_map]
  rfl

/-- The measure with a table and a name, or else the column. -/
theorem find?_ofCatalog (h : Orderly c.tables) (table name : String) :
    (Node.ofCatalog c).find? (·.object.isNamed table name) =
      ((c.findMeasure? table name).map Node.ofMeasure).or
        ((c.findColumn? table name).map Node.ofColumn) := by
  rw [Node.ofCatalog, List.find?_append, List.find?_map, List.find?_map,
    Catalog.findMeasure?_eq h, Catalog.findColumn?_eq h]
  rfl

/-- Without bars, the first object under a lowercase key is the one with the names. -/
theorem firstNamed?_eq (h : ∀ n ∈ Node.ofCatalog c, n.object.Unbarred) (table name : String) :
    firstNamed? c (normalizedKey table name) =
      (Node.ofCatalog c).find? (·.object.isNamed table name) := by
  refine List.find?_congr fun n hn => ?_
  rw [Bool.eq_iff_iff, decide_eq_true_eq]
  exact (h n hn).normalized_eq_iff

/-- In a catalog with orderly tables, the ways to look up an object agree exactly when the
keys are faithful. -/
theorem lookupsAgree_iff_of_orderly (h : Orderly c.tables) :
    LookupsAgree c ↔ KeysFaithful c := by
  have hmeasures : (∀ table name, (Index.ofCatalog c).measures.get? table name =
      (c.findMeasure? table name).map (·.ref)) ↔ ∀ r ∈ c.measures.map (·.ref), r.Unbarred := by
    rw [← find?_normalized_eq_iff]
    refine forall₂_congr fun table name => ?_
    rw [Index.measures_ofCatalog h, Catalog.findMeasure?_eq h, List.find?_map]
    rfl
  have hcolumns : (∀ table name, (Index.ofCatalog c).columns.get? table name =
      (c.findColumn? table name).map (·.ref)) ↔ ∀ r ∈ c.columns.map (·.ref), r.Unbarred := by
    rw [← find?_normalized_eq_iff]
    refine forall₂_congr fun table name => ?_
    rw [Index.columns_ofCatalog h, Catalog.findColumn?_eq h, List.find?_map]
    rfl
  constructor
  · intro hagree
    have hunbarred : ∀ n ∈ Node.ofCatalog c, n.object.Unbarred :=
      forall_mem_ofCatalog.mpr ⟨hmeasures.mp hagree.measure, hcolumns.mp hagree.column⟩
    refine ⟨hunbarred, fun n hn => ?_⟩
    have hnode := hagree.node n.object.table n.object.name
    rw [Graph.ofCatalog, Graph.find?_build, ← find?_ofCatalog h, ← firstNamed?_eq hunbarred] at hnode
    have hsame : normalizedKey n.object.table n.object.name = n.object.normalized := rfl
    rw [hsame, hn] at hnode
    exact hnode
  · rintro ⟨hunbarred, hfirst⟩
    obtain ⟨hm, hc⟩ := forall_mem_ofCatalog.mp hunbarred
    refine ⟨hmeasures.mpr hm, hcolumns.mpr hc, fun table name => ?_⟩
    rw [Graph.ofCatalog, Graph.find?_build, ← find?_ofCatalog h, ← firstNamed?_eq hunbarred]
    cases hn : firstNamed? c (normalizedKey table name) with
    | none => rfl
    | some n =>
        have hkey := (mem_ofCatalog_of_firstNamed? hn).2
        exact hfirst n (by rw [hkey, hn])

/-- In every catalog of definitions or of rows, the three ways to look up an object agree
exactly when the keys are faithful. -/
theorem lookupsAgree_iff_keysFaithful (documents : List Definition.Node)
    (rows : MetadataRows) :
    (LookupsAgree (.ofDocuments documents) ↔ KeysFaithful (.ofDocuments documents))
      ∧ (LookupsAgree rows.build.catalog ↔ KeysFaithful rows.build.catalog) :=
  ⟨lookupsAgree_iff_of_orderly (orderly_ofDocuments documents),
    lookupsAgree_iff_of_orderly (MetadataRows.orderly_build rows)⟩

/-- Two measures whose names are joined to one lowercase key. -/
theorem not_lookupsAgree_barInName :
    ¬ LookupsAgree (.ofDocuments [
      (Definition.parse "table 'a|b'\n\tmeasure c = 1\n" "first").root,
      (Definition.parse "table a\n\tmeasure 'b|c' = 2\n" "second").root]) := by
  intro h
  have hmeasure := h.measure "a" "b|c"
  exact absurd hmeasure (by decide +kernel)

/-- The keys of plain objects are faithful. -/
theorem keysFaithful_of_plain (h : ∀ n ∈ Node.ofCatalog c, n.object.Plain) :
    KeysFaithful c where
  unbarred n hn := (h n hn).unbarred
  first n hn := by
    obtain ⟨hmem, -⟩ := mem_ofCatalog_of_firstNamed? hn
    obtain ⟨-, before, after, hlist, hbefore⟩ := List.find?_eq_some_iff_append.mp hn
    refine List.find?_eq_some_iff_append.mpr ⟨decide_eq_true rfl, before, after, hlist, ?_⟩
    intro m hm
    have hother := hbefore m hm
    rw [Bool.not_eq_true', decide_eq_false_iff_not] at hother ⊢
    exact fun hkey => hother (congrArg ObjectRef.normalized (ObjectRef.eq_of_key_eq (h n hmem) hkey))

end Dependency

end Tabular
