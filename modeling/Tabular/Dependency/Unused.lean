import Tabular.Dependency.Graph

/-!
# Unused objects

A measure is used when a formula refers to it or a visual binds it; a column also when a
relationship ends at it; a table when it owns a measure or a column of it is used.
Everything else is unused, except for the columns that the rules pass over. The lists are
in the order of the catalog and cut to a limit, the totals are not.
-/

namespace Tabular.Dependency

open Formula Json Ordered Text

/-- The measures, columns and tables that nothing refers to. -/
structure UnusedObjects where
  measures : List ObjectRef
  columns : List ObjectRef
  tables : List String
  totalMeasures : Nat
  totalColumns : Nat
  totalTables : Nat
  deriving DecidableEq, Inhabited, Repr

namespace UnusedObjects

/-- Whether everything is used. -/
def isEmpty (u : UnusedObjects) : Bool :=
  u.totalMeasures == 0 && u.totalColumns == 0 && u.totalTables == 0

/-- Whether a list was cut. -/
def isTruncated (u : UnusedObjects) : Bool :=
  u.measures.length < u.totalMeasures || u.columns.length < u.totalColumns
    || u.tables.length < u.totalTables

/-- The unused objects as a value. -/
def encode (u : UnusedObjects) : Value :=
  .obj [
    ("unused_measures", Encode.list ObjectRef.encode u.measures),
    ("unused_columns", Encode.list ObjectRef.encode u.columns),
    ("unused_tables", Encode.strings u.tables),
    ("total_unused_measures", .nat u.totalMeasures),
    ("total_unused_columns", .nat u.totalColumns),
    ("total_unused_tables", .nat u.totalTables)]

end UnusedObjects

namespace Graph

/-- The nodes of some keys. -/
def nodesOf (g : Graph) (keys : List Key) : List Node := keys.filterMap g.nodes.get?

/-- The bindings that count as uses. -/
def countedBindings (g : Graph) : List Binding :=
  g.bindings.filter fun b => g.rules.includeFilters || !b.viaFilter

/-- The objects of one kind that counted bindings are of. -/
def boundObjects (g : Graph) (kind : ObjectKind) : List ObjectRef :=
  (g.countedBindings.filter (·.kind == kind)).map (·.object)

/-- What the formulas of the graph refer to. -/
def allReferences (g : Graph) : List References := g.references.toList.map (·.2)

/-- The measures that are used. -/
def usedMeasures (g : Graph) : List ObjectRef :=
  g.allReferences.flatMap (·.measures.toList) ++ g.boundObjects .measure

/-- The columns that are used. -/
def usedColumns (g : Graph) : List ObjectRef :=
  g.allReferences.flatMap (·.columns.toList)
    ++ g.relationships.flatMap (fun r => [r.source, r.target])
    ++ g.boundObjects .column

/-- The tables that are used: those with a measure and those of used columns. -/
def usedTables (g : Graph) : List String :=
  (g.nodesOf g.measureKeys).map (·.object.table) ++ g.usedColumns.map (·.table)

/-- Whether the rules pass over a column. -/
def passesOver (rules : ColumnRules) (n : Node) : Bool :=
  rules.excludeHidden && n.isHidden || rules.excludeKey && n.isKey
    || rules.isReserved n.object.name

/-- The measures that are not used. -/
def unusedMeasures (g : Graph) : List ObjectRef :=
  let used := SortedSet.ofList (g.usedMeasures.map (·.normalized))
  ((g.nodesOf g.measureKeys).filter fun n => n.object.normalized ∉ used).map (·.object)

/-- The columns that are not used and not passed over. -/
def unusedColumns (g : Graph) : List ObjectRef :=
  let used := SortedSet.ofList (g.usedColumns.map (·.normalized))
  ((g.nodesOf g.columnKeys).filter fun n =>
    !passesOver g.rules.columns n && decide (n.object.normalized ∉ used)).map (·.object)

/-- The tables that are not used. -/
def unusedTables (g : Graph) : List String :=
  let used := SortedSet.ofList (g.usedTables.map fold)
  g.tables.filter fun t => fold t ∉ used

/-- What nothing refers to. -/
def unusedObjects (g : Graph) : UnusedObjects :=
  let limits := g.rules.limits
  let measures := g.unusedMeasures
  let columns := g.unusedColumns
  let tables := g.unusedTables
  { measures := measures.take limits.unusedMeasures
    columns := columns.take limits.unusedColumns
    tables := tables.take limits.unusedTables
    totalMeasures := measures.length
    totalColumns := columns.length
    totalTables := tables.length }

end Graph

end Tabular.Dependency
