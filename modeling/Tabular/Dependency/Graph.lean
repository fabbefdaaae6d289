import Tabular.Config
import Tabular.Formula.References
import Tabular.Report.Binding

/-!
# The dependency graph of a catalog

The nodes of the graph are the measures and columns of a catalog, each under its key,
and its edges lead from the owner of a formula to what the formula refers to. A formula
that refers to its own owner makes no edge of that.

Two nodes with one key cannot be told apart by it, and the first one keeps it; the same
holds for lookups in lowercase. An edge to a column ends at the node that the lookup
finds for it. What no node answers for still is the end of an edge, under its own key.
-/

namespace Tabular.Dependency

open Formula Ordered Text

/-- A measure or column of a catalog. -/
structure Node where
  object : ObjectRef
  kind : ObjectKind
  /-- Its formula, if it has one. -/
  expression : Option String
  isHidden : Bool
  isKey : Bool
  deriving DecidableEq, Inhabited, Repr

/-- An edge from the owner of a formula to an object the formula refers to. -/
structure Edge where
  owner : Key
  ownerKind : ObjectKind
  target : Key
  targetKind : ObjectKind
  deriving DecidableEq, Inhabited, Repr

/-- A formula with its owner and what it refers to. -/
structure OwnedFormula where
  owner : ObjectRef
  kind : ObjectKind
  /-- The objects the formula refers to, its owner aside. -/
  references : References
  deriving DecidableEq, Inhabited

/-- How uses are counted, and how many unused objects are listed. -/
structure UsageRules where
  limits : OutputLimits := {}
  columns : ColumnRules := {}
  /-- Whether a field that only filters bind is used. -/
  includeFilters : Bool := true
  deriving DecidableEq, Inhabited, Repr

/-- The measures and columns of a catalog with their dependencies. -/
structure Graph where
  /-- The nodes under their keys. -/
  nodes : SortedMap Key Node := ∅
  /-- The keys of the nodes under their lowercase keys. -/
  lookup : SortedMap String Key := ∅
  /-- The keys of the measures, as the catalog lists them. -/
  measureKeys : List Key := []
  /-- The keys of the columns, as the catalog lists them. -/
  columnKeys : List Key := []
  /-- The names of the tables. -/
  tables : List String := []
  edges : List Edge := []
  /-- What the formula under each key refers to; of several formulas, the last. -/
  references : SortedMap Key References := ∅
  relationships : List Relationship := []
  /-- What the visuals of reports bind. -/
  bindings : List Binding := []
  rules : UsageRules := {}

namespace Node

/-- The key of a node. -/
def key (n : Node) : Key := n.object.key

/-- Whether a node is a column with a formula. -/
def isCalculated (n : Node) : Bool := n.kind == .column && n.expression.isSome

/-- The node of a measure. A formula of blanks is none. -/
def ofMeasure (m : Measure) : Node where
  object := m.ref
  kind := .measure
  expression := if blank m.expression then none else some m.expression
  isHidden := m.isHidden
  isKey := false

/-- The node of a column. -/
def ofColumn (c : Column) : Node where
  object := c.ref
  kind := .column
  expression := c.expression
  isHidden := c.isHidden
  isKey := c.isKey

/-- The nodes of a catalog: the measures, and then the columns. -/
def ofCatalog (c : Catalog) : List Node :=
  c.measures.map ofMeasure ++ c.columns.map ofColumn

/-- The nodes under their keys, where the first one with a key keeps it. -/
def byKey (ns : List Node) : SortedMap Key Node :=
  ns.foldl (fun m n => m.insertNew n.key n) ∅

/-- The keys of the nodes under their lowercase keys, where the first one keeps it. -/
def lookupOf (ns : List Node) : SortedMap String Key :=
  ns.foldl (fun m n => m.insertNew n.object.normalized n.key) ∅

end Node

namespace OwnedFormula

/-- References without those to the owner of the formula. -/
def withoutOwner (owner : ObjectRef) (r : References) : References :=
  { r with
    measures := r.measures.filter fun m => m.normalized != owner.normalized
    columns := r.columns.filter fun c => c.normalized != owner.normalized }

/-- What the formula of an object refers to, if there is a formula. -/
def of? (index : Index) (owner : ObjectRef) (kind : ObjectKind) (formula : String) :
    Option OwnedFormula :=
  if blank formula then none
  else some ⟨owner, kind, withoutOwner owner (resolve index formula)⟩

/-- The formulas of a catalog: those of measures, and then those of columns. -/
def ofCatalog (c : Catalog) (index : Index) : List OwnedFormula :=
  c.measures.filterMap (fun m => of? index m.ref .measure m.expression)
    ++ c.columns.filterMap (fun col => col.expression.bind (of? index col.ref .column))

/-- The key of the owner. -/
def key (f : OwnedFormula) : Key := f.owner.key

/-- The edges of a formula, given the lookup of the nodes. -/
def edges (lookup : SortedMap String Key) (f : OwnedFormula) : List Edge :=
  f.references.measures.toList.map (fun m => ⟨f.key, f.kind, m.key, .measure⟩)
    ++ f.references.columns.toList.map fun c =>
      ⟨f.key, f.kind, (lookup.get? c.normalized).getD c.key, .column⟩

end OwnedFormula

namespace UsageRules

/-- The rules that the settings give. -/
def ofConfig (c : Config) : UsageRules where
  limits := c.limits
  columns := c.columns
  includeFilters := c.visuals.includeFilters

/-- The rules as a value. -/
def encode (r : UsageRules) : Json.Value :=
  .obj [
    ("limits", r.limits.encode),
    ("columns", r.columns.encode),
    ("include_filters", .bool r.includeFilters)]

end UsageRules

namespace Graph

/-- The graph of a catalog, with its formulas read against an index. -/
def build (c : Catalog) (index : Index) : Graph :=
  let nodes := Node.ofCatalog c
  let formulas := OwnedFormula.ofCatalog c index
  let lookup := Node.lookupOf nodes
  { nodes := Node.byKey nodes
    lookup
    measureKeys := c.measures.map (·.key)
    columnKeys := c.columns.map (·.key)
    tables := c.tables.map (·.name)
    edges := formulas.flatMap (·.edges lookup)
    references := formulas.foldl (fun m f => m.insert f.key f.references) ∅
    relationships := c.relationships }

/-- The graph of a catalog, with its formulas read against its own names. -/
def ofCatalog (c : Catalog) : Graph := build c (Index.ofCatalog c)

/-- The graph with other rules. -/
def withRules (g : Graph) (rules : UsageRules) : Graph := { g with rules }

/-- The graph with further bindings of visuals. -/
def withBindings (g : Graph) (bs : List Binding) : Graph :=
  { g with bindings := g.bindings ++ bs }

/-- The node with a table and a name, in any case. -/
def find? (g : Graph) (table name : String) : Option Node :=
  (g.lookup.get? (normalizedKey table name)).bind g.nodes.get?

/-- The node under a key, or under the table and name that the key spells. -/
def findKey? (g : Graph) (key : Key) : Option Node :=
  (g.nodes.get? key).or ((ObjectRef.ofKey? key).bind fun r => g.find? r.table r.name)

/-- Whether there is a node for a key. -/
def contains (g : Graph) (key : Key) : Bool := (g.findKey? key).isSome

/-- The key of the node for a key, which stays as it is when there is none. -/
def canonical (g : Graph) (key : Key) : Key := ((g.findKey? key).map (·.key)).getD key

/-- What the formula of an object refers to. -/
def references? (g : Graph) (key : Key) : Option References :=
  g.references.get? (g.canonical key)

/-- The ends of the edges of one relation that start at a key. -/
def targets (g : Graph) (ownerKind targetKind : ObjectKind) (owner : Key) : List Key :=
  (SortedSet.ofList ((g.edges.filter fun e =>
    e.owner == owner && e.ownerKind == ownerKind && e.targetKind == targetKind).map
      (·.target))).toList

/-- The starts of the edges of one relation that end at a key. -/
def owners (g : Graph) (ownerKind targetKind : ObjectKind) (target : Key) : List Key :=
  (SortedSet.ofList ((g.edges.filter fun e =>
    e.target == target && e.ownerKind == ownerKind && e.targetKind == targetKind).map
      (·.owner))).toList

/-- What an object depends on directly: first measures, then columns, each in order. -/
def dependsOn (g : Graph) (key : Key) : List (Key × ObjectKind) :=
  let key := g.canonical key
  let kind := ((g.nodes.get? key).map (·.kind)).getD .measure
  (g.targets kind .measure key).map (·, .measure)
    ++ (g.targets kind .column key).map (·, .column)

/-- The owners of formulas of one kind that depend on an object directly. -/
def dependents (g : Graph) (kind : ObjectKind) (key : Key) : List Key :=
  let key := g.canonical key
  (SortedSet.ofList (g.owners kind .measure key ++ g.owners kind .column key)).toList

theorem mem_targets {g : Graph} {ownerKind targetKind : ObjectKind} {owner target : Key} :
    target ∈ g.targets ownerKind targetKind owner ↔
      ⟨owner, ownerKind, target, targetKind⟩ ∈ g.edges := by
  simp only [targets, SortedSet.mem_toList, SortedSet.mem_ofList, List.mem_map,
    List.mem_filter, Bool.and_eq_true, beq_iff_eq]
  constructor
  · rintro ⟨⟨_, _, _, _⟩, ⟨he, ⟨rfl, rfl⟩, rfl⟩, rfl⟩
    exact he
  · exact fun he => ⟨_, ⟨he, ⟨rfl, rfl⟩, rfl⟩, rfl⟩

theorem mem_owners {g : Graph} {ownerKind targetKind : ObjectKind} {owner target : Key} :
    owner ∈ g.owners ownerKind targetKind target ↔
      ⟨owner, ownerKind, target, targetKind⟩ ∈ g.edges := by
  simp only [owners, SortedSet.mem_toList, SortedSet.mem_ofList, List.mem_map,
    List.mem_filter, Bool.and_eq_true, beq_iff_eq]
  constructor
  · rintro ⟨⟨_, _, _, _⟩, ⟨he, ⟨rfl, rfl⟩, rfl⟩, rfl⟩
    exact he
  · exact fun he => ⟨_, ⟨he, ⟨rfl, rfl⟩, rfl⟩, rfl⟩

/-- How many nodes and edges of each sort there are. -/
structure Stats where
  measures : Nat
  columns : Nat
  measureToMeasure : Nat
  measureToColumn : Nat
  columnToColumn : Nat
  columnToMeasure : Nat
  visualFields : Nat
  deriving DecidableEq, Inhabited, Repr

/-- How many different edges there are between two kinds. -/
def edgeCount (g : Graph) (ownerKind targetKind : ObjectKind) : Nat :=
  (firstSeen (g.edges.filter fun e =>
    e.ownerKind == ownerKind && e.targetKind == targetKind)).length

/-- How large the graph is. -/
def stats (g : Graph) : Stats where
  measures := g.measureKeys.length
  columns := g.columnKeys.length
  measureToMeasure := g.edgeCount .measure .measure
  measureToColumn := g.edgeCount .measure .column
  columnToColumn := g.edgeCount .column .column
  columnToMeasure := g.edgeCount .column .measure
  visualFields := g.bindings.length

/-- The size of a graph as a value. -/
def Stats.encode (s : Stats) : Json.Value :=
  .obj [
    ("measures", .nat s.measures),
    ("columns", .nat s.columns),
    ("measure_to_measure", .nat s.measureToMeasure),
    ("measure_to_column", .nat s.measureToColumn),
    ("column_to_column", .nat s.columnToColumn),
    ("column_to_measure", .nat s.columnToMeasure),
    ("visual_fields", .nat s.visualFields)]

end Graph

end Tabular.Dependency
