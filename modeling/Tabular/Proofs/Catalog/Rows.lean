import Mathlib.Logic.ExistsUnique
import Tabular.Catalog.Rows
import Tabular.Proofs.Catalog.Changes

/-!
# What a catalog holds of its rows

Rows for tables, for columns and for measures all do one thing: they name a table and
change it. Taken in this order, as rows of one kind, they are either left out, each with a
warning of its own, or they change a table. What a table of the catalog holds then follows
from what changes leave behind: its columns and measures are those of the rows that name
it, in their order, and its flags are those of its last row.
-/

namespace Tabular

open Ordered Text

/-- The column of a row, owned by a table. -/
def ColumnRow.toColumn (r : ColumnRow) (table : String) : Column where
  table := table
  name := r.name
  dataType := r.dataType
  expression := r.expression.filter (!blank ·)
  isHidden := r.isHidden
  isKey := r.isKey

/-- The measure of a row, owned by a table. -/
def MeasureRow.toMeasure (r : MeasureRow) (table : String) : Measure where
  table := table
  name := r.name
  expression := r.expression
  displayFolder := r.displayFolder
  formatString := r.formatString
  isHidden := r.isHidden
  description := r.description

namespace MetadataRows

/-- A row for a table or for what a table owns. -/
inductive ObjectRow where
  | table (row : TableRow)
  | column (row : ColumnRow)
  | measure (row : MeasureRow)

namespace ObjectRow

/-- The table that a row names. -/
def owner : ObjectRow → String
  | table row => row.name
  | column row => row.table
  | measure row => row.table

/-- Whether a row lacks a name that it needs. -/
def isSkipped : ObjectRow → Bool
  | table row => blank row.name
  | column row => lacksName row.table row.name
  | measure row => lacksName row.table row.name

/-- The report on a row that is left out. -/
def report : ObjectRow → Diagnostic
  | table _ => skipped "table" "" ""
  | column row => skipped "column" row.table row.name
  | measure row => skipped "measure" row.table row.name

/-- What a row changes in its table. -/
def enter : ObjectRow → Table → Table
  | table row, t => { t with isHidden := row.isHidden, description := row.description }
  | column row, t => { t with columns := t.columns ++ [row.toColumn t.name] }
  | measure row, t => { t with measures := t.measures ++ [row.toMeasure t.name] }

/-- The row, if it is one for a table. -/
def table? : ObjectRow → Option TableRow
  | table row => some row
  | _ => none

/-- The row, if it is one for a column. -/
def column? : ObjectRow → Option ColumnRow
  | column row => some row
  | _ => none

/-- The row, if it is one for a measure. -/
def measure? : ObjectRow → Option MeasureRow
  | measure row => some row
  | _ => none

theorem flags_enter (row : ObjectRow) (t : Table) :
    ((row.enter t).isHidden, (row.enter t).description) =
      (row.table?.map fun row => (row.isHidden, row.description)).getD
        (t.isHidden, t.description) := by
  cases row with
  | table row | column row | measure row => rfl

theorem columns_enter (row : ObjectRow) (t : Table) :
    (row.enter t).columns =
      t.columns ++ (row.column?.map (·.toColumn t.name)).toList := by
  cases row with
  | column row => rfl
  | table row | measure row => exact (List.append_nil _).symm

theorem measures_enter (row : ObjectRow) (t : Table) :
    (row.enter t).measures =
      t.measures ++ (row.measure?.map (·.toMeasure t.name)).toList := by
  cases row with
  | measure row => rfl
  | table row | column row => exact (List.append_nil _).symm

theorem keepsOwner_enter (row : ObjectRow) : KeepsOwner row.enter where
  name t := by
    cases row with
    | table row | column row | measure row => rfl
  owns t h := by
    cases row with
    | table row => exact ⟨h.measures, h.columns⟩
    | column row =>
        refine ⟨h.measures, fun c hc => ?_⟩
        rcases List.mem_append.mp hc with hc | hc
        · exact h.columns c hc
        · rw [List.mem_singleton.mp hc]
          rfl
    | measure row =>
        refine ⟨fun m hm => ?_, h.columns⟩
        rcases List.mem_append.mp hm with hm | hm
        · exact h.measures m hm
        · rw [List.mem_singleton.mp hm]
          rfl

end ObjectRow

variable (r : MetadataRows)

/-- The rows for tables, then those for columns, then those for measures. -/
def objectRows : List ObjectRow :=
  r.tables.map .table ++ r.columns.map .column ++ r.measures.map .measure

/-- The rows that are not left out. -/
def kept : List ObjectRow := r.objectRows.filter (!·.isSkipped)

theorem kept_eq :
    r.kept = (r.tables.filter (!blank ·.name)).map .table
      ++ (r.columns.filter fun c => !lacksName c.table c.name).map .column
      ++ (r.measures.filter fun m => !lacksName m.table m.name).map .measure := by
  rw [kept, objectRows, List.filter_append, List.filter_append, List.filter_map,
    List.filter_map, List.filter_map]
  rfl

theorem toTables_eq :
    r.toTables = r.kept.foldl (fun ts row => changeTable row.owner row.enter ts) [] := by
  rw [kept_eq, List.foldl_append, List.foldl_append, List.foldl_map, List.foldl_map,
    List.foldl_map]
  rfl

theorem diagnostics_eq :
    r.diagnostics = (r.objectRows.filter (·.isSkipped)).map (·.report) := by
  rw [objectRows, List.filter_append, List.filter_append, List.filter_map, List.filter_map,
    List.filter_map, List.map_append, List.map_append, List.map_map, List.map_map,
    List.map_map]
  rfl

theorem orderly_build : Orderly r.build.catalog.tables := by
  show Orderly r.toTables
  rw [toTables_eq]
  exact Orderly.nil.foldl_changeTable ObjectRow.owner ObjectRow.keepsOwner_enter r.kept

/-! ## The rows of one table -/

/-- The rows for a table. -/
def tableRowsOf (table : String) : List TableRow :=
  r.tables.filter fun row => fold row.name == fold table && !blank row.name

/-- The rows for columns of a table. -/
def columnRowsOf (table : String) : List ColumnRow :=
  r.columns.filter fun row => fold row.table == fold table && !lacksName row.table row.name

/-- The rows for measures of a table. -/
def measureRowsOf (table : String) : List MeasureRow :=
  r.measures.filter fun row => fold row.table == fold table && !lacksName row.table row.name

/-- The rows that are kept for a table. -/
theorem filter_kept (table : String) :
    (r.kept.filter fun row => fold row.owner == fold table) =
      (r.tableRowsOf table).map .table ++ (r.columnRowsOf table).map .column
        ++ (r.measureRowsOf table).map .measure := by
  rw [kept_eq, List.filter_append, List.filter_append, List.filter_map, List.filter_map,
    List.filter_map, List.filter_filter, List.filter_filter, List.filter_filter]
  rfl

theorem filterMap_kept {β : Type} (pick : ObjectRow → Option β) (table : String) :
    (r.kept.filter fun row => fold row.owner == fold table).filterMap pick =
      (r.tableRowsOf table).filterMap (pick ∘ .table)
        ++ (r.columnRowsOf table).filterMap (pick ∘ .column)
        ++ (r.measureRowsOf table).filterMap (pick ∘ .measure) := by
  rw [filter_kept, List.filterMap_append, List.filterMap_append, List.filterMap_map,
    List.filterMap_map, List.filterMap_map]

/-! ## The tables of the catalog -/

variable {r} {t : Table}

/-- What rows of one kind put into a table stands there in their order. -/
theorem parts_of_mem_toTables {β ρ : Type} (ht : t ∈ r.toTables) (parts : Table → List β)
    (pick : ObjectRow → Option ρ) (made : ρ → String → β) (hnew : ∀ name, parts { name } = [])
    (henter : ∀ row t, parts (ObjectRow.enter row t) =
      parts t ++ ((pick row).map (made · t.name)).toList) :
    parts t = ((r.kept.filter fun row => fold row.owner == fold t.name).filterMap pick).map
      (made · t.name) := by
  rw [toTables_eq] at ht
  rw [parts_of_mem ObjectRow.keepsOwner_enter ht parts
      (fun table row => ((pick row).map (made · table)).toList) hnew henter,
    ← List.filterMap_eq_flatMap_toList, ← List.map_filterMap]

theorem columns_of_mem (ht : t ∈ r.toTables) :
    t.columns = (r.columnRowsOf t.name).map (·.toColumn t.name) := by
  rw [parts_of_mem_toTables ht Table.columns ObjectRow.column? ColumnRow.toColumn
    (fun _ => rfl) ObjectRow.columns_enter, filterMap_kept]
  simp [Function.comp_def, ObjectRow.column?]

theorem measures_of_mem (ht : t ∈ r.toTables) :
    t.measures = (r.measureRowsOf t.name).map (·.toMeasure t.name) := by
  rw [parts_of_mem_toTables ht Table.measures ObjectRow.measure? MeasureRow.toMeasure
    (fun _ => rfl) ObjectRow.measures_enter, filterMap_kept]
  simp [Function.comp_def, ObjectRow.measure?]

/-- Whether a table is hidden, and its description, are what its last row says. -/
theorem flags_of_mem (ht : t ∈ r.toTables) :
    (t.isHidden, t.description) =
      ((r.tableRowsOf t.name).getLast?.map fun row => (row.isHidden, row.description)).getD
        (false, none) := by
  rw [toTables_eq] at ht
  have hflags := field_of_mem ObjectRow.keepsOwner_enter ht
    (fun t => (t.isHidden, t.description)) _ (false, none) (fun _ => rfl)
    ObjectRow.flags_enter
  rw [← List.map_filterMap, List.getLast?_map, filterMap_kept] at hflags
  simpa [Function.comp_def, ObjectRow.table?] using hflags

theorem map_name_toTables (r : MetadataRows) :
    r.toTables.map (fun t => fold t.name) = firstSeen (r.kept.map fun row => fold row.owner) := by
  rw [toTables_eq, map_name_foldl_changeTable ObjectRow.owner
    fun row => (ObjectRow.keepsOwner_enter row).name]
  rfl

/-- Every row that is kept names exactly one table. -/
theorem existsUnique_owner {row : ObjectRow} (hrow : row ∈ r.kept) :
    ∃! t, t ∈ r.toTables ∧ fold t.name = fold row.owner := by
  have hnamed : fold row.owner ∈ r.toTables.map fun t => fold t.name := by
    rw [map_name_toTables, mem_firstSeen]
    exact List.mem_map_of_mem hrow
  obtain ⟨t, ht, hname⟩ := List.mem_map.mp hnamed
  refine ⟨t, ⟨ht, hname⟩, ?_⟩
  rintro s ⟨hs, hsame⟩
  exact r.orderly_build.eq_of_fold_eq hs ht (hsame.trans hname.symm)

/-- A loaded model that accounts for every row: a row that is left out for its name has
one warning, and of the others each stands in the one table that it names. The tables are
those that rows name, in the order and the spelling in which they are named first. -/
structure Accounted (r : MetadataRows) (m : LoadedModel) : Prop where
  warnings : m.diagnostics = (r.objectRows.filter (·.isSkipped)).map (·.report)
  severity : ∀ d ∈ m.diagnostics, d.code = .warning ∧ d.severity = .warn
  order : m.catalog.tables.map (fun t => fold t.name) =
    firstSeen (r.kept.map fun row => fold row.owner)
  apart : (m.catalog.tables.map fun t => fold t.name).Nodup
  spelling : ∀ t ∈ m.catalog.tables,
    (r.kept.find? fun row => fold row.owner == fold t.name).map (·.owner) = some t.name
  flags : ∀ t ∈ m.catalog.tables, (t.isHidden, t.description) =
    ((r.tableRowsOf t.name).getLast?.map fun row => (row.isHidden, row.description)).getD
      (false, none)
  owner : ∀ row ∈ r.kept, ∃! t, t ∈ m.catalog.tables ∧ fold t.name = fold row.owner
  columns : ∀ t ∈ m.catalog.tables,
    t.columns = (r.columnRowsOf t.name).map (·.toColumn t.name)
  measures : ∀ t ∈ m.catalog.tables,
    t.measures = (r.measureRowsOf t.name).map (·.toMeasure t.name)
  relationships : m.catalog.relationships = r.relationships.map (·.toRelationship)

/-- The catalog that rows describe accounts for each of them. -/
theorem accounted_build (r : MetadataRows) : Accounted r r.build where
  warnings := r.diagnostics_eq
  severity d hd := by
    have hreport : d ∈ (r.objectRows.filter (·.isSkipped)).map (·.report) := by
      rw [← r.diagnostics_eq]
      exact hd
    obtain ⟨row, -, rfl⟩ := List.mem_map.mp hreport
    cases row with
    | table row | column row | measure row => exact ⟨rfl, rfl⟩
  order := r.map_name_toTables
  apart := r.orderly_build.apart
  spelling t ht := by
    have hmem : t ∈ r.toTables := ht
    rw [toTables_eq] at hmem
    exact spelling_of_mem ObjectRow.keepsOwner_enter hmem
  flags _ ht := flags_of_mem ht
  owner _ hrow := existsUnique_owner hrow
  columns _ ht := columns_of_mem ht
  measures _ ht := measures_of_mem ht
  relationships := rfl

/-- A column under another spelling, one without a table, and a table without a row. -/
example :
    let rows : MetadataRows := {
      tables := [{ name := "Sales" }],
      columns := [{ table := "sales", name := "Net" }, { table := "", name := "Orphan" }],
      measures := [{ table := "Budget", name := "Plan", expression := "1000" }] }
    rows.build.catalog.tables =
      [{ name := "Sales", columns := [{ table := "Sales", name := "Net" }] },
        { name := "Budget",
          measures := [{ table := "Budget", name := "Plan", expression := "1000" }] }]
    ∧ rows.build.diagnostics = [skipped "column" "" "Orphan"] := by
  decide +kernel

end MetadataRows

end Tabular
