import Tabular.Dependency.Graph
import Tabular.Dependency.Search

/-!
# What depends on what in the end

Following edges forward from an object gives all it depends on (`allDependencies`),
following them backward all that changes with it (`allDependents`). Objects that depend
on each other in a circle make a group; a group is shown once, at its first key, and
groups have no object in common.
-/

namespace Tabular.Dependency

namespace Graph

/-- The relations between kinds of objects, in the order in which a search follows
them. -/
def relations : List (ObjectKind × ObjectKind) :=
  [(.measure, .measure), (.measure, .column), (.column, .column), (.column, .measure)]

/-- What the edges from a key lead to. -/
def forward (g : Graph) (key : Key) : List Key :=
  relations.flatMap fun r => g.targets r.1 r.2 key

/-- Where the edges to a key come from. -/
def backward (g : Graph) (key : Key) : List Key :=
  relations.flatMap fun r => g.owners r.1 r.2 key

/-- Every edge between two keys belongs to one of the relations. -/
theorem mem_forward {g : Graph} {owner target : Key} :
    target ∈ g.forward owner ↔ ∃ e ∈ g.edges, e.owner = owner ∧ e.target = target := by
  simp only [forward, relations, List.mem_flatMap, mem_targets]
  constructor
  · rintro ⟨r, -, he⟩
    exact ⟨_, he, rfl, rfl⟩
  · rintro ⟨⟨owner, ownerKind, target, targetKind⟩, he, rfl, rfl⟩
    exact ⟨(ownerKind, targetKind), by cases ownerKind <;> cases targetKind <;> simp, he⟩

theorem mem_backward {g : Graph} {owner target : Key} :
    owner ∈ g.backward target ↔ ∃ e ∈ g.edges, e.owner = owner ∧ e.target = target := by
  simp only [backward, relations, List.mem_flatMap, mem_owners]
  constructor
  · rintro ⟨r, -, he⟩
    exact ⟨_, he, rfl, rfl⟩
  · rintro ⟨⟨owner, ownerKind, target, targetKind⟩, he, rfl, rfl⟩
    exact ⟨(ownerKind, targetKind), by cases ownerKind <;> cases targetKind <;> simp, he⟩

/-- All that an object depends on, the nearest first. -/
def allDependencies (g : Graph) (key : Key) : List Key :=
  search g.forward g.edges.length (g.canonical key)

/-- All that depends on an object, the nearest first. -/
def allDependents (g : Graph) (key : Key) : List Key :=
  search g.backward g.edges.length (g.canonical key)

/-- Whether the second object depends on the first, directly or not. -/
def hasPath (g : Graph) (source target : Key) : Bool :=
  (g.allDependents source).contains (g.canonical target)

/-- The keys of all nodes, each with the keys it depends on. -/
def closures (g : Graph) : List (Key × List Key) :=
  g.nodes.keys.map fun key => (key, search g.forward g.edges.length key)

/-- The keys that depend on a key and that it depends on, with itself, in order. -/
def circleOf (closures : List (Key × List Key)) (key : Key) (above : List Key) : List Key :=
  (closures.filter fun c =>
    c.1 == key || (above.contains c.1 && c.2.contains key)).map (·.1)

/-- The groups of objects that depend on each other, in the order of their first keys. -/
def cycles (g : Graph) : List (List Key) :=
  let closures := g.closures
  closures.filterMap fun (key, above) =>
    let circle := circleOf closures key above
    if circle.length > 1 && circle.head? == some key then some circle else none

/-- Warns of a group of objects that depend on each other. -/
def cycleNote (circle : List Key) : Diagnostic where
  code := .circularReference
  severity := .warn
  message := "circular dependency between " ++ ", ".intercalate circle
  object := circle.head?
  related := circle.tail

/-- A warning for each group. -/
def diagnostics (g : Graph) : List Diagnostic := g.cycles.map cycleNote

end Graph

end Tabular.Dependency
