import Tabular.Dependency.Unused
import Tabular.Proofs.Ordered.SortedMap

/-!
# The nodes a graph finds

A graph keeps its nodes under keys and under lowercase keys, and both maps are filled
from one list in which the measures of the catalog stand before its columns. What is
found under a key is therefore the first element of that list with the key, and it is
found again under the key it has.
-/

namespace Tabular.Dependency

open Ordered Formula

theorem Node.key_ofMeasure (m : Measure) : (Node.ofMeasure m).key = m.key := rfl

theorem Node.key_ofColumn (col : Column) : (Node.ofColumn col).key = col.key := rfl

/-- The first measure or column of a catalog that has a key. -/
def firstWithKey? (c : Catalog) (key : Key) : Option Node :=
  (Node.ofCatalog c).find? fun n => n.key = key

/-- The first measure or column of a catalog that has a lowercase key. -/
def firstNamed? (c : Catalog) (normalized : String) : Option Node :=
  (Node.ofCatalog c).find? fun n => n.object.normalized = normalized

theorem mem_ofCatalog_of_firstWithKey? {c : Catalog} {key : Key} {n : Node}
    (h : firstWithKey? c key = some n) : n ∈ Node.ofCatalog c ∧ n.key = key := by
  have hkey := List.find?_some h
  rw [decide_eq_true_eq] at hkey
  exact ⟨List.mem_of_find?_eq_some h, hkey⟩

theorem mem_ofCatalog_of_firstNamed? {c : Catalog} {normalized : String} {n : Node}
    (h : firstNamed? c normalized = some n) :
    n ∈ Node.ofCatalog c ∧ n.object.normalized = normalized := by
  have hsame := List.find?_some h
  rw [decide_eq_true_eq] at hsame
  exact ⟨List.mem_of_find?_eq_some h, hsame⟩

theorem exists_firstWithKey? {c : Catalog} {n : Node} (h : n ∈ Node.ofCatalog c) :
    ∃ m, firstWithKey? c n.key = some m := by
  rw [← Option.isSome_iff_exists, firstWithKey?, List.find?_isSome]
  exact ⟨n, h, decide_eq_true rfl⟩

theorem exists_firstNamed? {c : Catalog} {n : Node} (h : n ∈ Node.ofCatalog c) :
    ∃ m, firstNamed? c n.object.normalized = some m := by
  rw [← Option.isSome_iff_exists, firstNamed?, List.find?_isSome]
  exact ⟨n, h, decide_eq_true rfl⟩

theorem ofMeasure_mem_ofCatalog {c : Catalog} {m : Measure} (h : m ∈ c.measures) :
    Node.ofMeasure m ∈ Node.ofCatalog c :=
  List.mem_append_left _ (List.mem_map_of_mem h)

theorem ofColumn_mem_ofCatalog {c : Catalog} {col : Column} (h : col ∈ c.columns) :
    Node.ofColumn col ∈ Node.ofCatalog c :=
  List.mem_append_right _ (List.mem_map_of_mem h)

namespace Graph

variable {c : Catalog} {index : Index}

@[simp] theorem get?_nodes_build (c : Catalog) (index : Index) (key : Key) :
    (build c index).nodes.get? key = firstWithKey? c key := by
  have h := SortedMap.get?_foldl_insertNew Node.key id (Node.ofCatalog c) ∅ key
  rw [SortedMap.get?_empty, Option.none_or, Option.map_id] at h
  exact h

@[simp] theorem get?_lookup_build (c : Catalog) (index : Index) (normalized : String) :
    (build c index).lookup.get? normalized =
      (firstNamed? c normalized).map (·.key) := by
  have h := SortedMap.get?_foldl_insertNew (·.object.normalized) Node.key
    (Node.ofCatalog c) ∅ normalized
  rw [SortedMap.get?_empty, Option.none_or] at h
  exact h

theorem find?_build (c : Catalog) (index : Index) (table name : String) :
    (build c index).find? table name =
      (firstNamed? c (normalizedKey table name)).bind fun n => firstWithKey? c n.key := by
  rw [find?, get?_lookup_build, Option.bind_map]
  exact congrArg _ (funext fun n => get?_nodes_build c index n.key)

theorem mem_nodes_keys_build {key : Key} :
    key ∈ (build c index).nodes.keys ↔ ∃ n ∈ Node.ofCatalog c, n.key = key := by
  rw [SortedMap.mem_keys_iff]
  simp only [get?_nodes_build]
  constructor
  · rintro ⟨n, hn⟩
    exact ⟨n, mem_ofCatalog_of_firstWithKey? hn⟩
  · rintro ⟨n, hn, rfl⟩
    exact exists_firstWithKey? hn

/-- The graph of a catalog under some rules, with the bindings of some visuals. -/
def reported (c : Catalog) (index : Index) (rules : UsageRules) (bs : List Binding) :
    Graph := ((build c index).withRules rules).withBindings bs

/-- A graph is keyed when what it finds under a key has that key. -/
def Keyed (g : Graph) : Prop := ∀ key n, g.nodes.get? key = some n → n.key = key

theorem keyed_build (c : Catalog) (index : Index) : (build c index).Keyed := by
  intro key n h
  rw [get?_nodes_build] at h
  exact (mem_ofCatalog_of_firstWithKey? h).2

/-- The key of a node is the key it is found under. -/
theorem canonical_of_mem_keys {g : Graph} (hg : g.Keyed) {key : Key}
    (h : key ∈ g.nodes.keys) : g.canonical key = key := by
  obtain ⟨n, hn⟩ := SortedMap.mem_keys_iff.mp h
  simp [canonical, findKey?, hn, hg key n hn]

/-- What stands for a key stands for itself. -/
theorem canonical_canonical {g : Graph} (hg : g.Keyed) (key : Key) :
    g.canonical (g.canonical key) = g.canonical key := by
  cases hfind : g.findKey? key with
  | none =>
      have hsame : g.canonical key = key := by simp [canonical, hfind]
      rw [hsame, hsame]
  | some n =>
      have hnode : ∃ k, g.nodes.get? k = some n := by
        rw [findKey?, Option.or_eq_some_iff] at hfind
        rcases hfind with hnode | ⟨-, hspelled⟩
        · exact ⟨key, hnode⟩
        · obtain ⟨r, -, hfound⟩ := Option.bind_eq_some_iff.mp hspelled
          obtain ⟨k, -, hnode⟩ := Option.bind_eq_some_iff.mp hfound
          exact ⟨k, hnode⟩
      obtain ⟨k, hk⟩ := hnode
      have hcanonical : g.canonical key = n.key := by simp [canonical, hfind]
      rw [hcanonical, hg k n hk]
      exact canonical_of_mem_keys hg (SortedMap.mem_keys_iff.mpr ⟨n, hk⟩)

end Graph

end Tabular.Dependency
