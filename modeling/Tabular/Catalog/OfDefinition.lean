import Tabular.Catalog.Basic
import Tabular.Definition.Typed

/-!
# The catalog of a definition

A model may be defined in any number of documents, and a table in several of them. What
counts are the declarations at the top of a document or inside a model, in order: each
relationship that names both of its ends, each expression, role and culture is taken as
it is, while declarations of one table are joined. The first of them gives the table its
name and its place; what the later ones own is owned by it.

Columns, measures and partitions outside a table belong to nothing and are left out.
-/

namespace Tabular

open Definition Text

namespace Definition

/-- A column as a table owns it. -/
def ColumnDecl.toColumn (table : String) (d : ColumnDecl) : Column where
  table
  name := d.name
  dataType := d.dataType
  expression := d.expression
  sourceColumn := d.sourceColumn
  isHidden := d.isHidden
  isKey := d.isKey
  displayFolder := d.displayFolder
  formatString := d.formatString
  summarizeBy := d.summarizeBy
  sortByColumn := d.sortByColumn
  description := d.description
  properties := d.properties.toMap

/-- A measure as a table owns it. When its formula was found under another key than the
usual one, the properties say so. -/
def MeasureDecl.toMeasure (table : String) (d : MeasureDecl) : Measure where
  table
  name := d.name
  expression := d.expression.getD ""
  displayFolder := d.displayFolder
  formatString := d.formatString
  isHidden := d.isHidden
  description := d.description
  properties :=
    match d.expressionKey with
    | some key =>
        if key = "expression" then d.properties.toMap
        else d.properties.toMap.insert "expressionKey" key
    | none => d.properties.toMap

/-- A partition. -/
def PartitionDecl.toPartition (d : PartitionDecl) : Partition where
  name := d.name
  sourceKind := d.sourceKind
  mode := d.mode
  source := d.source

/-- A hierarchy. -/
def HierarchyDecl.toHierarchy (d : HierarchyDecl) : Hierarchy where
  name := d.name
  levels := d.levels.map fun (name, column) => { name, column }

/-- Adds what a declaration of a table says to the table. -/
def TableDecl.addTo (d : TableDecl) (t : Table) : Table where
  name := t.name
  description := t.description.or d.description
  isHidden := t.isHidden || d.isHidden
  columns := t.columns ++ d.columns.map (·.toColumn t.name)
  measures := t.measures ++ d.measures.map (·.toMeasure t.name)
  partitions := t.partitions ++ d.partitions.map (·.toPartition)
  hierarchies := t.hierarchies ++ d.hierarchies.map (·.toHierarchy)
  properties :=
    d.properties.toMap.toList.foldl (fun m e => m.insertNew e.1 e.2) t.properties

/-- A relationship, if both of its ends name a column. -/
def RelationshipDecl.toRelationship? (d : RelationshipDecl) : Option Relationship :=
  match d.source, d.target with
  | some source, some target => some {
      name := d.name
      fromTable := source.1
      fromColumn := source.2
      toTable := target.1
      toColumn := target.2
      isActive := d.isActive
      crossFilter := (d.crossFiltering.map CrossFilter.ofDefinition).getD .single
      fromCardinality := d.fromCardinality
      toCardinality := d.toCardinality }
  | _, _ => none

/-- A named expression. -/
def ExpressionDecl.toNamedExpression (d : ExpressionDecl) : NamedExpression where
  name := d.name
  expression := d.expression
  isParameter := d.isParameter
  description := d.description
  properties := d.properties.toMap

/-- A role. -/
def RoleDecl.toRole (d : RoleDecl) : Role where
  name := d.name
  modelPermission := d.modelPermission
  tablePermissions := d.tablePermissions.map fun (table, filterExpression) =>
    { table, filterExpression }

mutual

/-- What a declaration stands for at the top of a document: a model for what stands for
the declarations inside it, any other for itself. -/
def Node.members : Node → List Node
  | .mk kind name line properties children =>
      if kind = .model then Node.membersAll children
      else [.mk kind name line properties children]

/-- What the declarations of a list stand for. -/
def Node.membersAll : List Node → List Node
  | [] => []
  | n :: rest => n.members ++ membersAll rest

end

/-- Joins a declaration of a table with those before it. -/
def addTable (tables : List Table) (n : Node) : List Table :=
  changeTable n.name n.table.addTo tables

end Definition

/-- The catalog of declarations, given the name of the model. -/
def Catalog.ofMembers (name : Option String) (members : List Node) : Catalog where
  name
  tables := (members.filter (·.kind == .table)).foldl addTable []
  relationships := (members.filter (·.kind == .relationship)).filterMap
    (·.relationship.toRelationship?)
  expressions := (members.filter (·.kind == .expression)).map
    (·.namedExpression.toNamedExpression)
  roles := (members.filter (·.kind == .role)).map (·.role.toRole)
  cultures := (members.filter (·.kind == .culture)).map (·.name)

/-- The catalog of a model that is defined in documents. -/
def Catalog.ofDocuments (documents : List Node) : Catalog :=
  let top := documents.flatMap (·.children)
  .ofMembers ((top.find? (·.kind == .model)).map (·.name)) (Node.membersAll top)

end Tabular
