import Tabular.Dependency.Reach
import Tabular.Proofs.Dependency.Nodes
import Tabular.Proofs.Dependency.Search

/-!
# Dependencies as paths of edges

One object depends on another directly when an edge leads from the first to the second,
and in the end when a path of edges does. The searches of a graph follow one edge at a
time, so each lists the other ends of such paths; their bound, the number of edges, is
never what stops them, since a step always ends where some edge does.
-/

namespace Tabular.Dependency

open Relation (ReflTransGen)

namespace Graph

/-- Whether an edge leads from one key to another. -/
def DependsOn (g : Graph) (owner target : Key) : Prop :=
  ∃ e ∈ g.edges, e.owner = owner ∧ e.target = target

/-- Whether two objects depend on each other, or are one. -/
def Circular (g : Graph) (a b : Key) : Prop :=
  ReflTransGen g.DependsOn a b ∧ ReflTransGen g.DependsOn b a

/-- The steps of a search forward are the edges. -/
theorem steps_forward (g : Graph) : (fun a b => b ∈ g.forward a) = g.DependsOn := by
  funext a b
  exact propext mem_forward

theorem steps_backward (g : Graph) :
    (fun a b => b ∈ g.backward a) = Function.swap g.DependsOn := by
  funext a b
  exact propext mem_backward

theorem ends_forward (g : Graph) : ∀ a, ∀ b ∈ g.forward a, b ∈ g.edges.map (·.target) := by
  intro a b hb
  obtain ⟨e, he, -, rfl⟩ := mem_forward.mp hb
  exact List.mem_map_of_mem he

theorem ends_backward (g : Graph) : ∀ a, ∀ b ∈ g.backward a, b ∈ g.edges.map (·.owner) := by
  intro a b hb
  obtain ⟨e, he, rfl, -⟩ := mem_backward.mp hb
  exact List.mem_map_of_mem he

theorem mem_search_forward {g : Graph} {start key : Key} :
    key ∈ search g.forward g.edges.length start ↔
      key ≠ start ∧ ReflTransGen g.DependsOn start key := by
  rw [mem_search g.ends_forward (List.length_map _).le, steps_forward]

theorem mem_search_backward {g : Graph} {start key : Key} :
    key ∈ search g.backward g.edges.length start ↔
      key ≠ start ∧ ReflTransGen g.DependsOn key start := by
  rw [mem_search g.ends_backward (List.length_map _).le, steps_backward,
    Relation.reflTransGen_swap]

/-- There is a path from one object to another exactly when they differ and the second
depends on the first in the end. -/
theorem hasPath_iff {g : Graph} {source target : Key} :
    g.hasPath source target = true ↔
      g.canonical target ≠ g.canonical source
        ∧ ReflTransGen g.DependsOn (g.canonical target) (g.canonical source) := by
  rw [hasPath, List.contains_iff_mem, allDependents, mem_search_backward]

theorem Circular.refl (g : Graph) (a : Key) : g.Circular a a :=
  ⟨ReflTransGen.refl, ReflTransGen.refl⟩

theorem Circular.symm {g : Graph} {a b : Key} (h : g.Circular a b) : g.Circular b a :=
  ⟨h.2, h.1⟩

theorem Circular.trans {g : Graph} {a b c : Key} (h : g.Circular a b)
    (h' : g.Circular b c) : g.Circular a c :=
  ⟨h.1.trans h'.1, h'.2.trans h.2⟩

end Graph

end Tabular.Dependency
