import Tabular.Definition.ColumnName
import Tabular.Definition.FormulaText
import Tabular.Definition.Node

/-!
# Declarations by kind

What a declaration says, field by field. Each kind has its own fields; they are taken out
of the properties one after the other, and what nobody takes stays in `properties`, in
order.
-/

namespace Tabular.Definition

open Text

/-- A column as declared. -/
structure ColumnDecl where
  name : String
  dataType : Option String
  expression : Option String
  sourceColumn : Option String
  isHidden : Bool
  isKey : Bool
  displayFolder : Option String
  formatString : Option String
  summarizeBy : Option String
  sortByColumn : Option String
  description : Option String
  properties : PropertyBag
  deriving DecidableEq, Inhabited

/-- A measure as declared. -/
structure MeasureDecl where
  name : String
  expression : Option String
  /-- The key that the formula was found under. -/
  expressionKey : Option String
  displayFolder : Option String
  formatString : Option String
  isHidden : Bool
  description : Option String
  properties : PropertyBag
  deriving DecidableEq, Inhabited

/-- A partition as declared. -/
structure PartitionDecl where
  name : String
  sourceKind : Option String
  mode : Option String
  source : Option String
  properties : PropertyBag
  deriving DecidableEq, Inhabited

/-- A hierarchy as declared, its levels with the columns they are bound to. -/
structure HierarchyDecl where
  name : String
  levels : List (String × Option String)
  deriving DecidableEq, Inhabited

/-- A table as declared. -/
structure TableDecl where
  name : String
  description : Option String
  isHidden : Bool
  columns : List ColumnDecl
  measures : List MeasureDecl
  partitions : List PartitionDecl
  hierarchies : List HierarchyDecl
  properties : PropertyBag
  deriving DecidableEq, Inhabited

/-- A relationship as declared. An end that names no column is missing. -/
structure RelationshipDecl where
  name : String
  source : Option (String × String)
  target : Option (String × String)
  isActive : Bool
  crossFiltering : Option String
  fromCardinality : Option String
  toCardinality : Option String
  properties : PropertyBag
  deriving DecidableEq, Inhabited

/-- A named expression as declared. -/
structure ExpressionDecl where
  name : String
  expression : String
  isParameter : Bool
  description : Option String
  properties : PropertyBag
  deriving DecidableEq, Inhabited

/-- A role as declared, with the tables it may see and how they are filtered. -/
structure RoleDecl where
  name : String
  modelPermission : Option String
  tablePermissions : List (String × Option String)
  properties : PropertyBag
  deriving DecidableEq, Inhabited

/-- A culture as declared. -/
structure CultureDecl where
  name : String
  properties : PropertyBag
  deriving DecidableEq, Inhabited

/-- A declaration with the fields of its kind. -/
inductive Declaration where
  | table (d : TableDecl)
  | column (d : ColumnDecl)
  | measure (d : MeasureDecl)
  | relationship (d : RelationshipDecl)
  | partition (d : PartitionDecl)
  | namedExpression (d : ExpressionDecl)
  | role (d : RoleDecl)
  | culture (d : CultureDecl)
  /-- A declaration of a kind without fields of its own. -/
  | other (n : Node)
  deriving Inhabited

/-- The value of a flag, which is off when it is not given, and the bag without it. -/
def PropertyBag.takeFlag (b : PropertyBag) (key : String) : Bool × PropertyBag :=
  ((b.flag? key).getD false, b.erase key)

namespace Node

/-- A declaration as a column. -/
def column (n : Node) : ColumnDecl :=
  let (dataType, b) := n.properties.take "dataType"
  let (expression, b) := b.take "expression"
  let (sourceColumn, b) := b.take "sourceColumn"
  let (isHidden, b) := b.takeFlag "isHidden"
  let (isKey, b) := b.takeFlag "isKey"
  let (displayFolder, b) := b.take "displayFolder"
  let (formatString, b) := b.take "formatString"
  let (summarizeBy, b) := b.take "summarizeBy"
  let (sortByColumn, b) := b.take "sortByColumn"
  let (description, b) := b.take "description"
  { name := n.name, dataType, expression := expression.filter (!blank ·), sourceColumn,
    isHidden, isKey, displayFolder, formatString, summarizeBy, sortByColumn, description,
    properties := b }

/-- A declaration as a measure. -/
def measure (n : Node) : MeasureDecl :=
  let located := n.properties.formula?
  let b := match located with
    | some (key, _) => n.properties.erase key
    | none => n.properties
  let (displayFolder, b) := b.take "displayFolder"
  let (formatString, b) := b.take "formatString"
  let (isHidden, b) := b.takeFlag "isHidden"
  let (description, b) := b.take "description"
  { name := n.name, expression := located.map (·.2), expressionKey := located.map (·.1),
    displayFolder, formatString, isHidden, description, properties := b }

/-- A declaration as a partition. -/
def partition (n : Node) : PartitionDecl :=
  let (sourceKind, b) := n.properties.take "sourceKind"
  let (mode, b) := b.take "mode"
  let (source, b) := b.take "source"
  { name := n.name, sourceKind, mode, source, properties := b }

/-- A declaration as a hierarchy. -/
def hierarchy (n : Node) : HierarchyDecl where
  name := n.name
  levels := (n.childrenOf .level).map fun l => (l.name, l.properties.get? "column")

/-- A declaration as a table. -/
def table (n : Node) : TableDecl :=
  let (description, b) := n.properties.take "description"
  let (isHidden, b) := b.takeFlag "isHidden"
  { name := n.name, description, isHidden,
    columns := (n.childrenOf .column).map column,
    measures := (n.childrenOf .measure).map measure,
    partitions := (n.childrenOf .partition).map partition,
    hierarchies := (n.childrenOf .hierarchy).map hierarchy,
    properties := b }

/-- A declaration as a relationship. -/
def relationship (n : Node) : RelationshipDecl :=
  let (source, b) := n.properties.take "fromColumn"
  let (target, b) := b.take "toColumn"
  let isActive := (b.flag? "isActive").getD true
  let b := b.erase "isActive"
  let (crossFiltering, b) := b.take "crossFilteringBehavior"
  let (fromCardinality, b) := b.take "fromCardinality"
  let (toCardinality, b) := b.take "toCardinality"
  { name := n.name, source := source.bind ColumnName.decompose?,
    target := target.bind ColumnName.decompose?, isActive, crossFiltering,
    fromCardinality, toCardinality, properties := b }

end Node

/-- The word that starts the record behind a parameter's value. -/
def recordStart : List Char := " meta [".toList

/-- What stands before the last occurrence of a text in another, and the other from there
on. -/
def splitAtLast? (needle : List Char) : List Char → Option (List Char × List Char)
  | [] => if needle = [] then some ([], []) else none
  | c :: rest =>
      match splitAtLast? needle rest with
      | some (before, after) => some (c :: before, after)
      | none => if (afterStart? needle (c :: rest)).isSome then some ([], c :: rest) else none

/-- The value of a named expression without the record behind it, and whether that record
says that it is a parameter. Without a record the value stays as it is. -/
def splitRecord (value : String) : String × Bool :=
  let lowered := asciiLower value.toList
  match splitAtLast? recordStart lowered with
  | some (before, record) =>
      (String.ofList (trimEnd (value.toList.take before.length)),
        occursIn "isparameterquery=true".toList (record.filter (· != ' ')))
  | none => (value, false)

namespace Node

/-- A declaration as a named expression. -/
def namedExpression (n : Node) : ExpressionDecl :=
  let (value, b) := n.properties.take "expression"
  let (expression, isParameter) := splitRecord (value.getD "")
  let (description, b) := b.take "description"
  { name := n.name, expression, isParameter, description, properties := b }

/-- A declaration as a role. -/
def role (n : Node) : RoleDecl :=
  let (modelPermission, b) := n.properties.take "modelPermission"
  { name := n.name, modelPermission,
    tablePermissions := (n.childrenOf .tablePermission).map fun p =>
      (p.name, p.properties.get? "filterExpression"),
    properties := b }

/-- A declaration with the fields of its kind. -/
def declaration (n : Node) : Declaration :=
  match n.kind with
  | .table => .table n.table
  | .column => .column n.column
  | .measure => .measure n.measure
  | .relationship => .relationship n.relationship
  | .partition => .partition n.partition
  | .expression => .namedExpression n.namedExpression
  | .role => .role n.role
  | .culture => .culture { name := n.name, properties := n.properties }
  | _ => .other n

end Node

end Tabular.Definition
