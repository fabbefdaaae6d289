import Tabular.Dependency.Graph

/-!
# Dependency trees

A tree unfolds what an object depends on, level by level up to a depth. An object that
is reached on two ways is unfolded on both; one that is reached again on its own way is
marked as circular and not unfolded, so no way has an object twice before its end. At
the last level an object that has dependencies is marked as truncated.
-/

namespace Tabular.Dependency

open Json

/-- What a dependency tree says of an object. -/
structure TreeEntry where
  key : Key
  table : String
  name : String
  kind : ObjectKind
  expression : Option String := none
  /-- Whether the object stands on the way to itself. -/
  isCircular : Bool := false
  /-- Whether it has dependencies beyond the last level. -/
  isTruncated : Bool := false
  /-- Whether its table is unknown. -/
  isUnresolved : Bool := false
  deriving DecidableEq, Inhabited, Repr

/-- An object with the trees of what it depends on. -/
inductive Tree where
  | node (entry : TreeEntry) (dependencies : List Tree)
  deriving Inhabited

namespace Tree

/-- What the tree says of its root. -/
def entry : Tree → TreeEntry
  | node entry _ => entry

/-- The trees of what the root depends on. -/
def dependencies : Tree → List Tree
  | node _ dependencies => dependencies

mutual

/-- How many entries a tree has. -/
def size : Tree → Nat
  | node _ dependencies => 1 + sizes dependencies

/-- How many entries some trees have together. -/
def sizes : List Tree → Nat
  | [] => 0
  | t :: rest => t.size + sizes rest

end

mutual

/-- How many levels there are below the root. -/
def depth : Tree → Nat
  | node _ dependencies => depths dependencies

/-- How many levels some trees have at most, their roots counted. -/
def depths : List Tree → Nat
  | [] => 0
  | t :: rest => max (t.depth + 1) (depths rest)

end

mutual

/-- Whether an entry of a tree is circular. -/
def hasCycle : Tree → Bool
  | node entry dependencies => entry.isCircular || haveCycle dependencies

/-- Whether an entry of some trees is circular. -/
def haveCycle : List Tree → Bool
  | [] => false
  | t :: rest => t.hasCycle || haveCycle rest

end

mutual

/-- A tree as a value. Only a formula that is there is written. -/
def encode : Tree → Value
  | node e dependencies =>
      .obj ([("key", .str e.key), ("table", .str e.table), ("name", .str e.name),
        ("kind", .str e.kind.text)]
        ++ (e.expression.map fun x => ("expression", .str x)).toList
        ++ [("circular_reference", .bool e.isCircular), ("truncated", .bool e.isTruncated),
          ("unresolved", .bool e.isUnresolved), ("dependencies", .arr (encodeAll dependencies))])

/-- Trees as values. -/
def encodeAll : List Tree → List Value
  | [] => []
  | t :: rest => t.encode :: encodeAll rest

end

/-- The fields of an entry. -/
def fields : List RecordField :=
  [.needed "key", .needed "table", .needed "name", .needed "kind", .spared "expression",
   .spared "circular_reference", .spared "truncated", .spared "unresolved",
   .spared "dependencies"]

/-- The tree of at most some number of levels that a value spells. -/
def decodeWithin : (levels : Nat) → Decoder Tree
  | 0, _ => none
  | levels + 1, v => do
      let r ← Record.read? fields v
      return .node {
        key := ← r.required "key" Decode.string
        table := ← r.required "table" Decode.string
        name := ← r.required "name" Decode.string
        kind := ← r.required "kind" (Decode.word ObjectKind.names)
        expression := ← r.optional "expression" Decode.string
        isCircular := ← r.orElse "circular_reference" Decode.bool false
        isTruncated := ← r.orElse "truncated" Decode.bool false
        isUnresolved := ← r.orElse "unresolved" Decode.bool false }
        (← r.orElse "dependencies" (Decode.list (decodeWithin levels)) [])

/-- The tree that a value spells. -/
def decode : Decoder Tree := fun v => decodeWithin v.height v

end Tree

namespace Graph

/-- What a tree says of the object under a key, before its place in the tree counts. -/
def treeEntry (g : Graph) (key : Key) (kind : ObjectKind) : TreeEntry :=
  let known := g.nodes.get? key
  let object := ((known.map (·.object)).or (ObjectRef.ofKey? key)).getD (.unresolved key)
  { key
    table := object.table
    name := object.name
    kind
    expression := known.bind (·.expression)
    isUnresolved := object.isUnresolved }

/-- The tree of an object at the end of a way, unfolded up to a depth. -/
def unfold (g : Graph) : (depth : Nat) → (way : List Key) → Key → ObjectKind → Tree
  | depth, way, key, kind =>
      let entry := g.treeEntry key kind
      if way.contains key then .node { entry with isCircular := true } []
      else
        let dependencies := g.dependsOn key
        match depth with
        | 0 => .node { entry with isTruncated := !dependencies.isEmpty } []
        | depth + 1 =>
            .node entry (dependencies.map fun d => unfold g depth (key :: way) d.1 d.2)

/-- The dependency tree of a measure. -/
def measureTree? (g : Graph) (table name : String) (depth : Nat) : Option Tree :=
  ((g.find? table name).filter (·.kind == .measure)).map fun n =>
    g.unfold depth [] n.key n.kind

/-- The dependency tree of the measure or column under a key. -/
def tree? (g : Graph) (key : Key) (depth : Nat) : Option Tree :=
  (g.findKey? key).map fun n => g.unfold depth [] n.key n.kind

end Graph

end Tabular.Dependency
