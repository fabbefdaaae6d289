import Mathlib.Data.List.Pairwise
import Tabular.Proofs.Dependency.Reach

/-!
# Cycles are the groups of objects that depend on each other

Depending on each other is an equivalence, and the circle of a key is its class among
the nodes. A circle is cut out of the ordered list of all nodes, so two keys of one
class have the very same circle, and showing it at its first key alone shows it once.
Classes are equal or disjoint; the first keys of different ones differ, which puts the
groups in order.

What is said of the groups leaves no choice: a list of groups of which it holds is the
list that `cycles` gives.
-/

namespace Tabular.Dependency

open Ordered

namespace Graph

/-- A list of groups of nodes: each group and the whole list in order, no node in two
groups or twice in one, and different nodes together exactly when there are paths
between them both ways. -/
structure IsGrouping (g : Graph) (groups : List (List Key)) : Prop where
  nodes : ∀ group ∈ groups, ∀ key ∈ group, key ∈ g.nodes.keys
  several : ∀ group ∈ groups, 2 ≤ group.length
  sorted : ∀ group ∈ groups, group.Pairwise (· < ·)
  disjoint : groups.Pairwise List.Disjoint
  ordered : groups.Pairwise (· < ·)
  together : ∀ a ∈ g.nodes.keys, ∀ b ∈ g.nodes.keys, a ≠ b →
    ((∃ group ∈ groups, a ∈ group ∧ b ∈ group) ↔
      g.hasPath a b = true ∧ g.hasPath b a = true)

/-- The circle of a key, as `cycles` cuts it out of all nodes. -/
def circle (g : Graph) (key : Key) : List Key :=
  circleOf g.closures key (search g.forward g.edges.length key)

variable {g : Graph}

theorem keys_pairwise_lt (g : Graph) : g.nodes.keys.Pairwise (· < ·) :=
  g.nodes.keys_sorted.imp compareOfLessAndEq_eq_lt.mp

theorem circle_eq_filter (g : Graph) (key : Key) :
    g.circle key = g.nodes.keys.filter fun k =>
      k == key || ((search g.forward g.edges.length key).contains k
        && (search g.forward g.edges.length k).contains key) := by
  rw [circle, circleOf, closures, List.filter_map, List.map_map]
  exact List.map_id _

theorem circle_pairwise_lt (g : Graph) (key : Key) : (g.circle key).Pairwise (· < ·) := by
  rw [circle_eq_filter]
  exact (keys_pairwise_lt g).filter _

theorem mem_circle {key k : Key} :
    k ∈ g.circle key ↔ k ∈ g.nodes.keys ∧ g.Circular key k := by
  rw [circle_eq_filter, List.mem_filter]
  refine and_congr_right fun _ => ?_
  rw [Bool.or_eq_true, Bool.and_eq_true, beq_iff_eq, List.contains_iff_mem,
    List.contains_iff_mem, mem_search_forward, mem_search_forward]
  constructor
  · rintro (rfl | ⟨⟨-, h⟩, ⟨-, h'⟩⟩)
    · exact Circular.refl g k
    · exact ⟨h, h'⟩
  · rintro ⟨h, h'⟩
    by_cases heq : k = key
    · exact Or.inl heq
    · exact Or.inr ⟨⟨heq, h⟩, ⟨fun e => heq e.symm, h'⟩⟩

theorem eq_of_pairwise_lt {xs ys : List Key} (hx : xs.Pairwise (· < ·))
    (hy : ys.Pairwise (· < ·)) (h : ∀ k, k ∈ xs ↔ k ∈ ys) : xs = ys :=
  eq_of_strictlySorted (hx.imp compareOfLessAndEq_eq_lt.mpr)
    (hy.imp compareOfLessAndEq_eq_lt.mpr) h

theorem circle_eq_of_circular {a b : Key} (h : g.Circular a b) :
    g.circle a = g.circle b := by
  refine eq_of_pairwise_lt (circle_pairwise_lt g a) (circle_pairwise_lt g b) fun k => ?_
  rw [mem_circle, mem_circle]
  exact and_congr_right fun _ => ⟨h.symm.trans, h.trans⟩

theorem cycles_eq_filterMap (g : Graph) : g.cycles = g.nodes.keys.filterMap fun key =>
    if (g.circle key).length > 1 && (g.circle key).head? == some key
    then some (g.circle key) else none := by
  rw [cycles, closures, List.filterMap_map]
  rfl

theorem shown_eq_some_iff {key : Key} {group : List Key} :
    (if (g.circle key).length > 1 && (g.circle key).head? == some key
      then some (g.circle key) else none) = some group ↔
      group = g.circle key ∧ 1 < group.length ∧ group.head? = some key := by
  rw [Option.ite_none_right_eq_some, Option.some.injEq, Bool.and_eq_true,
    decide_eq_true_eq, beq_iff_eq]
  constructor
  · rintro ⟨h, rfl⟩
    exact ⟨rfl, h⟩
  · rintro ⟨rfl, h⟩
    exact ⟨h, rfl⟩

/-- A group is the circle of its first key, and has another key. -/
theorem mem_cycles {group : List Key} :
    group ∈ g.cycles ↔ ∃ key ∈ g.nodes.keys,
      group = g.circle key ∧ 1 < group.length ∧ group.head? = some key := by
  rw [cycles_eq_filterMap, List.mem_filterMap]
  exact exists_congr fun key => and_congr_right fun _ => shown_eq_some_iff

/-- Keys of one group depend on each other. -/
theorem circular_of_mem_cycles {group : List Key} (hgroup : group ∈ g.cycles) {a b : Key}
    (ha : a ∈ group) (hb : b ∈ group) : g.Circular a b := by
  obtain ⟨key, -, rfl, -, -⟩ := mem_cycles.mp hgroup
  exact (mem_circle.mp ha).2.symm.trans (mem_circle.mp hb).2

/-- The circle of a node with another one in it is a group. -/
theorem circle_mem_cycles {a b : Key} (ha : a ∈ g.nodes.keys) (hb : b ∈ g.nodes.keys)
    (hne : a ≠ b) (h : g.Circular a b) : g.circle a ∈ g.cycles := by
  have hmem : a ∈ g.circle a := mem_circle.mpr ⟨ha, Circular.refl g a⟩
  have hmem' : b ∈ g.circle a := mem_circle.mpr ⟨hb, h⟩
  cases hcirc : g.circle a with
  | nil => rw [hcirc] at hmem; cases hmem
  | cons first rest =>
      have hfirst := mem_circle.mp (hcirc ▸ List.mem_cons_self : first ∈ g.circle a)
      refine mem_cycles.mpr ⟨first, hfirst.1, ?_, ?_, rfl⟩
      · rw [← hcirc]
        exact circle_eq_of_circular hfirst.2
      · rw [hcirc] at hmem hmem'
        cases rest with
        | nil =>
            rw [List.mem_singleton] at hmem hmem'
            exact absurd (hmem.trans hmem'.symm) hne
        | cons second rest => simp

theorem IsGrouping.nodup {groups : List (List Key)} (h : g.IsGrouping groups) :
    groups.Nodup :=
  h.ordered.imp fun {xs ys} hlt heq => by
    subst heq
    exact List.lt_irrefl xs hlt

end Graph

end Tabular.Dependency
