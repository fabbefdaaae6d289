import Tabular.Dependency.Reach

/-!
# The impact of a change

What a change of an object touches: the formulas that refer to it, the visuals that bind
it and the pages these stand on, and all that depends on it in the end. The use of a
column is asked for in the same way, with the relationships it is an end of.
-/

namespace Tabular.Dependency

open Json Ordered

/-- A visual that binds an object. -/
structure VisualUse where
  visualId : String
  visualType : String
  page : String
  /-- Whether it is a filter that binds the object. -/
  viaFilter : Bool
  deriving DecidableEq, Inhabited, Repr

/-- What depends on an object. -/
structure Impact where
  key : Key
  measures : List Key
  calculatedColumns : List Key
  visuals : List VisualUse
  /-- The pages of the visuals, in the order in which they come up. -/
  pages : List String
  /-- All that depends on the object, directly or not. -/
  downstream : List Key
  deriving DecidableEq, Inhabited, Repr

/-- A relationship that a column is an end of. -/
structure RelationshipUse where
  name : String
  source : Key
  target : Key
  isActive : Bool
  crossFilter : CrossFilter
  deriving DecidableEq, Inhabited, Repr

/-- Where a column is referred to. -/
structure ColumnUsage where
  table : String
  column : String
  measures : List Key
  calculatedColumns : List Key
  relationships : List RelationshipUse
  deriving DecidableEq, Inhabited, Repr

namespace VisualUse

/-- The visual of a binding. -/
def ofBinding (b : Binding) : VisualUse :=
  ⟨b.visualId, b.visualType, b.page, b.viaFilter⟩

/-- The use as a value. -/
def encode (u : VisualUse) : Value :=
  .obj [
    ("visual_id", .str u.visualId),
    ("visual_type", .str u.visualType),
    ("page", .str u.page),
    ("via_filter", .bool u.viaFilter)]

end VisualUse

namespace Impact

/-- Whether nothing refers to the object directly. -/
def isEmpty (i : Impact) : Bool :=
  i.measures.isEmpty && i.calculatedColumns.isEmpty && i.visuals.isEmpty

/-- The impact as a value. -/
def encode (i : Impact) : Value :=
  .obj [
    ("key", .str i.key),
    ("used_by_measures", Encode.strings i.measures),
    ("used_by_calculated_columns", Encode.strings i.calculatedColumns),
    ("used_in_visuals", Encode.list VisualUse.encode i.visuals),
    ("used_in_pages", Encode.strings i.pages),
    ("downstream", Encode.strings i.downstream)]

end Impact

namespace RelationshipUse

/-- The use that a relationship makes of its ends. -/
def ofRelationship (r : Relationship) : RelationshipUse :=
  ⟨r.name, r.source.key, r.target.key, r.isActive, r.crossFilter⟩

/-- The use as a value. -/
def encode (u : RelationshipUse) : Value :=
  .obj [
    ("name", .str u.name),
    ("from", .str u.source),
    ("to", .str u.target),
    ("is_active", .bool u.isActive),
    ("cross_filter", .str u.crossFilter.text)]

end RelationshipUse

namespace ColumnUsage

/-- Whether a formula or a relationship uses the column. -/
def isUsed (u : ColumnUsage) : Bool :=
  !(u.measures.isEmpty && u.calculatedColumns.isEmpty && u.relationships.isEmpty)

/-- The use of a column as a value. -/
def encode (u : ColumnUsage) : Value :=
  .obj [
    ("table", .str u.table),
    ("column", .str u.column),
    ("used_in_measures", Encode.strings u.measures),
    ("used_in_calculated_columns", Encode.strings u.calculatedColumns),
    ("used_in_relationships", Encode.list RelationshipUse.encode u.relationships),
    ("is_used", .bool u.isUsed)]

end ColumnUsage

namespace Graph

/-- The bindings of an object in visuals. -/
def bindingsOf (g : Graph) (key : Key) : List Binding :=
  match ObjectRef.ofKey? key with
  | none => []
  | some object => g.bindings.filter (·.binds object)

/-- What depends on an object. -/
def impact (g : Graph) (key : Key) : Impact :=
  let key := g.canonical key
  let bindings := g.bindingsOf key
  { key
    measures := g.dependents .measure key
    calculatedColumns := g.dependents .column key
    visuals := firstSeen (bindings.map VisualUse.ofBinding)
    pages := firstSeen (bindings.map (·.page))
    downstream := g.allDependents key }

/-- Whether the owner of a formula is a measure; so is an owner that is no node. -/
def isMeasureOwner (g : Graph) (key : Key) : Bool :=
  ((g.nodes.get? key).map (·.kind)).getD .measure == .measure

/-- The owners of the formulas that refer to a column, in order. -/
def columnOwners (g : Graph) (table column : String) : List Key :=
  (g.references.toList.filter fun e =>
    e.2.columns.toList.any fun c => c.isNamed table column).map (·.1)

/-- Where a column is referred to. -/
def columnUsage (g : Graph) (table column : String) : ColumnUsage :=
  let (measures, calculated) := (g.columnOwners table column).partition g.isMeasureOwner
  let object := ((g.find? table column).map (·.object)).getD ⟨table, column⟩
  { table := object.table
    column := object.name
    measures
    calculatedColumns := calculated
    relationships := (g.relationships.filter (·.touches table column)).map .ofRelationship }

end Graph

end Tabular.Dependency
