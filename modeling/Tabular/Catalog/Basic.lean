import Tabular.Object
import Tabular.Ordered.SortedMap
import Tabular.Text.Blank

/-!
# The catalog of a model

A catalog is a model laid out for questions: tables that own columns and measures, the
relationships between columns, named expressions, roles and cultures. It is taken from
one snapshot of a source and never changed afterwards; a later snapshot makes a new one.

Whatever a source says about an object beyond the fields that are asked for stays with
it in `properties`.
-/

namespace Tabular

open Text

/-- What is said about an object beyond its own fields. -/
abbrev Properties := Ordered.SortedMap String String

/-- The way filters flow through a relationship. -/
inductive CrossFilter where
  /-- From the one side to the many side. -/
  | single
  /-- Both ways. -/
  | both
  /-- As the engine decides. -/
  | automatic
  deriving DecidableEq, Inhabited, Repr

namespace CrossFilter

/-- The name of a direction. -/
def text : CrossFilter → String
  | .single => "single"
  | .both => "both"
  | .automatic => "automatic"

/-- The directions with their names. -/
def names : List (String × CrossFilter) :=
  [("single", .single), ("both", .both), ("automatic", .automatic)]

/-- The direction that a definition means by a word; any other word means one way. -/
def ofDefinition (word : String) : CrossFilter :=
  let folded := fold (trimmed word)
  if folded = "bothdirections" ∨ folded = "both" then .both
  else if folded = "automatic" then .automatic
  else .single

/-- A direction is found under its name. -/
theorem lookup_text (d : CrossFilter) : names.lookup d.text = some d := by cases d <;> rfl

end CrossFilter

/-- A column of a table. -/
structure Column where
  /-- The owning table. -/
  table : String
  name : String
  dataType : Option String := none
  /-- The formula of a calculated column. -/
  expression : Option String := none
  sourceColumn : Option String := none
  isHidden : Bool := false
  /-- Whether the column is the key of its table. -/
  isKey : Bool := false
  displayFolder : Option String := none
  formatString : Option String := none
  summarizeBy : Option String := none
  sortByColumn : Option String := none
  description : Option String := none
  properties : Properties := ∅
  deriving DecidableEq, Inhabited

/-- A measure of a table. -/
structure Measure where
  /-- The owning table. -/
  table : String
  name : String
  /-- The formula, empty when the source leaves it out. -/
  expression : String := ""
  displayFolder : Option String := none
  formatString : Option String := none
  isHidden : Bool := false
  description : Option String := none
  properties : Properties := ∅
  deriving DecidableEq, Inhabited

/-- A binding of a table to its data. -/
structure Partition where
  name : String
  /-- What kind of source it is. -/
  sourceKind : Option String := none
  mode : Option String := none
  source : Option String := none
  deriving DecidableEq, Inhabited

/-- One level of a hierarchy. -/
structure HierarchyLevel where
  name : String
  column : Option String := none
  deriving DecidableEq, Inhabited

/-- A hierarchy over the columns of a table. -/
structure Hierarchy where
  name : String
  levels : List HierarchyLevel := []
  deriving DecidableEq, Inhabited

/-- A table with what it owns. -/
structure Table where
  name : String
  description : Option String := none
  isHidden : Bool := false
  columns : List Column := []
  measures : List Measure := []
  partitions : List Partition := []
  hierarchies : List Hierarchy := []
  properties : Properties := ∅
  deriving DecidableEq, Inhabited

/-- A relationship between two columns. -/
structure Relationship where
  name : String
  fromTable : String
  fromColumn : String
  toTable : String
  toColumn : String
  isActive : Bool := true
  crossFilter : CrossFilter := .single
  fromCardinality : Option String := none
  toCardinality : Option String := none
  deriving DecidableEq, Inhabited

/-- An expression with a name of its own: a shared query or a parameter. -/
structure NamedExpression where
  name : String
  expression : String := ""
  /-- Whether it is a parameter of the queries. -/
  isParameter : Bool := false
  description : Option String := none
  properties : Properties := ∅
  deriving DecidableEq, Inhabited

/-- What a role may see of a table. -/
structure TablePermission where
  table : String
  filterExpression : Option String := none
  deriving DecidableEq, Inhabited

/-- A role. -/
structure Role where
  name : String
  modelPermission : Option String := none
  tablePermissions : List TablePermission := []
  deriving DecidableEq, Inhabited

/-- A model laid out for questions. -/
structure Catalog where
  /-- The name of the model, where the source gives one. -/
  name : Option String := none
  tables : List Table := []
  relationships : List Relationship := []
  expressions : List NamedExpression := []
  roles : List Role := []
  cultures : List String := []
  deriving DecidableEq, Inhabited

/-- How many objects a catalog has. -/
structure Catalog.Stats where
  tables : Nat
  columns : Nat
  calculatedColumns : Nat
  measures : Nat
  relationships : Nat
  expressions : Nat
  deriving DecidableEq, Inhabited

namespace Column

/-- The reference to a column. -/
def ref (c : Column) : ObjectRef := ⟨c.table, c.name⟩

/-- The key of a column. -/
def key (c : Column) : Key := c.ref.key

/-- Whether a column is given by a formula. -/
def isCalculated (c : Column) : Bool := c.expression.isSome

end Column

namespace Measure

/-- The reference to a measure. -/
def ref (m : Measure) : ObjectRef := ⟨m.table, m.name⟩

/-- The key of a measure. -/
def key (m : Measure) : Key := m.ref.key

end Measure

namespace Table

/-- The first column with a name, in any case. -/
def findColumn? (t : Table) (name : String) : Option Column :=
  t.columns.find? fun c => fold c.name == fold name

/-- The first measure with a name, in any case. -/
def findMeasure? (t : Table) (name : String) : Option Measure :=
  t.measures.find? fun m => fold m.name == fold name

end Table

/-- Changes the first table with a name, in any case, or else a new one at the end. -/
def changeTable (name : String) (change : Table → Table) : List Table → List Table
  | [] => [change { name }]
  | t :: rest =>
      if fold t.name == fold name then change t :: rest
      else t :: changeTable name change rest

namespace Relationship

/-- The column a relationship starts at. -/
def source (r : Relationship) : ObjectRef := ⟨r.fromTable, r.fromColumn⟩

/-- The column a relationship leads to. -/
def target (r : Relationship) : ObjectRef := ⟨r.toTable, r.toColumn⟩

/-- Whether one of the two ends is a column. -/
def touches (r : Relationship) (table column : String) : Bool :=
  r.source.isNamed table column || r.target.isNamed table column

end Relationship

namespace Catalog

/-- The first table with a name, in any case. -/
def findTable? (c : Catalog) (name : String) : Option Table :=
  c.tables.find? fun t => fold t.name == fold name

/-- The measure with a name in the table with a name. -/
def findMeasure? (c : Catalog) (table name : String) : Option Measure :=
  (c.findTable? table).bind (·.findMeasure? name)

/-- The column with a name in the table with a name. -/
def findColumn? (c : Catalog) (table name : String) : Option Column :=
  (c.findTable? table).bind (·.findColumn? name)

/-- All measures, table by table. -/
def measures (c : Catalog) : List Measure := c.tables.flatMap (·.measures)

/-- All columns, table by table. -/
def columns (c : Catalog) : List Column := c.tables.flatMap (·.columns)

/-- The columns that are given by a formula. -/
def calculatedColumns (c : Catalog) : List Column := c.columns.filter (·.isCalculated)

/-- How many objects the catalog has. -/
def stats (c : Catalog) : Stats where
  tables := c.tables.length
  columns := c.columns.length
  calculatedColumns := c.calculatedColumns.length
  measures := c.measures.length
  relationships := c.relationships.length
  expressions := c.expressions.length

end Catalog

end Tabular
