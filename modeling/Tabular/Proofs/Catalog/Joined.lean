import Tabular.Proofs.Catalog.Changes
import Tabular.Proofs.Definition.Members
import Tabular.Proofs.Definition.PropertyBag

/-!
# What a catalog holds of its definitions

A table of a catalog is what the declarations with its name make, one after the other, of
a table that is new and has the name of the first of them. Each of them puts its columns,
measures, partitions and hierarchies behind those that are there. So nothing that is
declared in a table is lost or doubled, and it stands in the order of the documents; and
the tables stand in the order in which they are declared first.

A relationship is in the catalog when both of its ends can be taken apart, with all that
its properties say of it.
-/

namespace Tabular

open Definition Ordered Text

/-! ## Declarations of one table -/

namespace Definition

namespace Node

/-- The two columns that a declaration of a relationship names. -/
def ends? (n : Node) : Option ((String × String) × (String × String)) :=
  match (n.properties.get? "fromColumn").bind ColumnName.decompose?,
    (n.properties.get? "toColumn").bind ColumnName.decompose? with
  | some source, some target => some (source, target)
  | _, _ => none

/-- The relationship with two ends that the properties of a declaration describe. -/
def linkBetween (n : Node) (ends : (String × String) × (String × String)) : Relationship where
  name := n.name
  fromTable := ends.1.1
  fromColumn := ends.1.2
  toTable := ends.2.1
  toColumn := ends.2.2
  isActive := (n.properties.flag? "isActive").getD true
  crossFilter := ((n.properties.get? "crossFilteringBehavior").map
    CrossFilter.ofDefinition).getD .single
  fromCardinality := n.properties.get? "fromCardinality"
  toCardinality := n.properties.get? "toCardinality"

theorem toRelationship?_eq (n : Node) :
    n.relationship.toRelationship? = n.ends?.map n.linkBetween := by
  rw [RelationshipDecl.toRelationship?, ends?]
  simp (disch := decide) only [relationship, PropertyBag.take, PropertyBag.get?_erase,
    PropertyBag.flag?_erase]
  cases (n.properties.get? "fromColumn").bind ColumnName.decompose? with
  | none => rfl
  | some source =>
      cases (n.properties.get? "toColumn").bind ColumnName.decompose? with
      | none => rfl
      | some target => rfl

/-- The declarations of one kind inside the declarations of a table that count. -/
def partsOf (documents : List Node) (table : String) (kind : Kind) : List Node :=
  ((counted .table documents).filter fun n => fold n.name == fold table).flatMap
    (·.childrenOf kind)

end Node

/-- A catalog that holds what some documents declare: their tables, each once, in the
order and the spelling of their first declarations; in a table what is declared in all of
its declarations, in order and owned by it; the relationships with two ends; and whatever
else they declare outside tables. -/
structure JoinedFrom (c : Catalog) (documents : List Node) : Prop where
  order : c.tables.map (fun t => fold t.name) =
    firstSeen ((Node.counted .table documents).map fun n => fold n.name)
  apart : (c.tables.map fun t => fold t.name).Nodup
  spelling : ∀ t ∈ c.tables, ((Node.counted .table documents).find? fun n =>
    fold n.name == fold t.name).map Node.name = some t.name
  owns : ∀ t ∈ c.tables, t.OwnsAll
  columns : ∀ t ∈ c.tables,
    t.columns = (Node.partsOf documents t.name .column).map (·.column.toColumn t.name)
  measures : ∀ t ∈ c.tables,
    t.measures = (Node.partsOf documents t.name .measure).map (·.measure.toMeasure t.name)
  partitions : ∀ t ∈ c.tables,
    t.partitions = (Node.partsOf documents t.name .partition).map (·.partition.toPartition)
  hierarchies : ∀ t ∈ c.tables,
    t.hierarchies = (Node.partsOf documents t.name .hierarchy).map (·.hierarchy.toHierarchy)
  relationships : c.relationships =
    (Node.counted .relationship documents).filterMap fun n => n.ends?.map n.linkBetween
  expressions : c.expressions =
    (Node.counted .expression documents).map (·.namedExpression.toNamedExpression)
  roles : c.roles = (Node.counted .role documents).map (·.role.toRole)
  cultures : c.cultures = (Node.counted .culture documents).map (·.name)

variable {documents : List Node}

theorem tables_ofDocuments (documents : List Node) :
    (Catalog.ofDocuments documents).tables =
      (Node.counted .table documents).foldl addTable [] := by
  rw [← Node.filter_membersAll_eq_counted (by decide)]
  rfl

theorem relationships_ofDocuments (documents : List Node) :
    (Catalog.ofDocuments documents).relationships =
      (Node.counted .relationship documents).filterMap fun n => n.ends?.map n.linkBetween := by
  rw [← Node.filter_membersAll_eq_counted (by decide)]
  exact List.filterMap_congr fun n _ => Node.toRelationship?_eq n

/-- The parts of a table are those of all its declarations. -/
theorem parts_ofDocuments {β : Type} {parts : Table → List β} (kind : Kind)
    (made : String → Node → β) (hnew : ∀ name, parts { name } = [])
    (hadded : ∀ (n : Node) t, parts (n.table.addTo t) =
      parts t ++ (n.childrenOf kind).map (made t.name)) {t : Table}
    (ht : t ∈ (Catalog.ofDocuments documents).tables) :
    parts t = (Node.partsOf documents t.name kind).map (made t.name) := by
  rw [tables_ofDocuments] at ht
  rw [parts_of_mem (fun n : Node => keepsOwner_addTo n.table) ht parts
    (fun table n => (n.childrenOf kind).map (made table)) hnew hadded, Node.partsOf,
    List.map_flatMap]

/-- The catalog of documents holds what they declare, and nothing twice. -/
theorem joinedFrom_ofDocuments (documents : List Node) :
    JoinedFrom (Catalog.ofDocuments documents) documents where
  order := by
    rw [tables_ofDocuments]
    have horder := map_name_foldl_changeTable Node.name
      (fun n => (keepsOwner_addTo n.table).name) (Node.counted .table documents) []
    rw [List.map_nil] at horder
    exact horder
  apart := (orderly_ofDocuments documents).apart
  spelling t ht := by
    rw [tables_ofDocuments] at ht
    exact spelling_of_mem (fun n : Node => keepsOwner_addTo n.table) ht
  owns := (orderly_ofDocuments documents).owns
  columns t ht := parts_ofDocuments .column (fun table n => n.column.toColumn table)
    (fun _ => rfl) (fun _ t => congrArg (t.columns ++ ·) List.map_map) ht
  measures t ht := parts_ofDocuments .measure (fun table n => n.measure.toMeasure table)
    (fun _ => rfl) (fun _ t => congrArg (t.measures ++ ·) List.map_map) ht
  partitions t ht := parts_ofDocuments .partition (fun _ n => n.partition.toPartition)
    (fun _ => rfl) (fun _ t => congrArg (t.partitions ++ ·) List.map_map) ht
  hierarchies t ht := parts_ofDocuments .hierarchy (fun _ n => n.hierarchy.toHierarchy)
    (fun _ => rfl) (fun _ t => congrArg (t.hierarchies ++ ·) List.map_map) ht
  relationships := relationships_ofDocuments documents
  expressions := by
    rw [← Node.filter_membersAll_eq_counted (by decide)]
    rfl
  roles := by
    rw [← Node.filter_membersAll_eq_counted (by decide)]
    rfl
  cultures := by
    rw [← Node.filter_membersAll_eq_counted (by decide)]
    rfl

end Definition

end Tabular
