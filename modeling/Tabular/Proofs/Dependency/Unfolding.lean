import Mathlib.Data.Finset.Card
import Tabular.Proofs.Dependency.Nodes
import Tabular.Proofs.Dependency.Places

/-!
# Dependency trees as unfoldings

A tree of depth `d` is known by what stands at each of its places. Nothing stands twice on
a way except, perhaps, at its end, and what stands there for the second time is marked as
circular. Behind any other place above level `d` stand its direct dependencies; at level
`d` there is only the mark that says whether there are any.

The invariant behind this is `at_unfold`: the tree at a place is again an unfolding, with
the depth that is left and the way as what was met. Two bounds follow. A way is no longer
than `d`, and since all but the end of it are different keys of the graph, it is no longer
than there are keys. So any graph is unfolded to an end, however it goes in circles.
-/

namespace Tabular.Dependency

open Ordered

namespace Graph

/-- The keys of a graph: those of its nodes, and those at the ends of its edges. -/
def allKeys (g : Graph) : Finset Key :=
  (g.nodes.keys ++ g.edges.flatMap fun e => [e.owner, e.target]).toFinset

/-- A tree unfolds a node up to a depth. -/
structure IsUnfolding (g : Graph) (depth : Nat) (n : Node) (root : Tree) : Prop where
  key : root.entry.key = n.key
  kind : root.entry.kind = n.kind
  /-- What is said of an object, its marks aside, is what the graph knows of it. -/
  entry : ∀ way t, root.At way t → t.entry =
    { g.treeEntry t.entry.key t.entry.kind with
      isCircular := t.entry.isCircular, isTruncated := t.entry.isTruncated }
  nodup : ∀ way t, root.At way t → way.Nodup
  circular : ∀ way t, root.At way t → (t.entry.isCircular = true ↔ t.entry.key ∈ way)
  closed : ∀ way t, root.At way t → t.entry.isCircular = true →
    t.dependencies = [] ∧ t.entry.isTruncated = false
  last : ∀ way t, root.At way t → t.entry.isCircular = false → way.length = depth →
    t.dependencies = [] ∧ (t.entry.isTruncated = true ↔ g.dependsOn t.entry.key ≠ [])
  inner : ∀ way t, root.At way t → t.entry.isCircular = false → way.length ≠ depth →
    t.dependencies.map (fun s => (s.entry.key, s.entry.kind)) = g.dependsOn t.entry.key
      ∧ t.entry.isTruncated = false

/-- A tree is the one that unfolds a node, and its depth keeps both bounds. -/
structure IsTreeOf (g : Graph) (depth : Nat) (n : Node) (t : Tree) : Prop where
  unfolding : ∀ u, g.IsUnfolding depth n u ↔ u = t
  depth_le : t.depth ≤ min depth g.allKeys.card

variable {g : Graph} {depth : Nat} {key : Key} {kind : ObjectKind} {way : List Key}
  {root t s : Tree} {n : Node}

/-! ## One step of unfolding -/

theorem unfold_of_mem (hkey : key ∈ way) (g : Graph) (depth : Nat) (kind : ObjectKind) :
    g.unfold depth way key kind =
      .node { g.treeEntry key kind with isCircular := true } [] := by
  rw [unfold.eq_def]
  exact if_pos (List.contains_iff_mem.mpr hkey)

theorem unfold_zero (hkey : key ∉ way) (g : Graph) (kind : ObjectKind) :
    g.unfold 0 way key kind =
      .node { g.treeEntry key kind with isTruncated := !(g.dependsOn key).isEmpty } [] := by
  rw [unfold.eq_def]
  exact if_neg fun h => hkey (List.contains_iff_mem.mp h)

theorem unfold_succ (hkey : key ∉ way) (g : Graph) (depth : Nat) (kind : ObjectKind) :
    g.unfold (depth + 1) way key kind = .node (g.treeEntry key kind)
      ((g.dependsOn key).map fun d => g.unfold depth (key :: way) d.1 d.2) := by
  rw [unfold.eq_def]
  exact if_neg fun h => hkey (List.contains_iff_mem.mp h)

/-- An object that is on its own way is marked, one at the last level is not unfolded, and
behind any other stand its dependencies. -/
theorem unfold_cases (g : Graph) (depth : Nat) (way : List Key) (key : Key)
    (kind : ObjectKind) :
    (key ∈ way ∧ g.unfold depth way key kind =
        .node { g.treeEntry key kind with isCircular := true } [])
      ∨ (key ∉ way ∧ depth = 0 ∧ g.unfold depth way key kind =
        .node { g.treeEntry key kind with isTruncated := !(g.dependsOn key).isEmpty } [])
      ∨ (key ∉ way ∧ ∃ m, depth = m + 1 ∧ g.unfold depth way key kind =
        .node (g.treeEntry key kind)
          ((g.dependsOn key).map fun d => g.unfold m (key :: way) d.1 d.2)) := by
  by_cases hkey : key ∈ way
  · exact Or.inl ⟨hkey, unfold_of_mem hkey g depth kind⟩
  · cases depth with
    | zero => exact Or.inr (Or.inl ⟨hkey, rfl, unfold_zero hkey g kind⟩)
    | succ m => exact Or.inr (Or.inr ⟨hkey, m, rfl, unfold_succ hkey g m kind⟩)

@[simp] theorem key_unfold (g : Graph) (depth : Nat) (way : List Key) (key : Key)
    (kind : ObjectKind) : (g.unfold depth way key kind).entry.key = key := by
  rcases unfold_cases g depth way key kind with ⟨-, h⟩ | ⟨-, -, h⟩ | ⟨-, m, -, h⟩
  · rw [h]; rfl
  · rw [h]; rfl
  · rw [h]; rfl

@[simp] theorem kind_unfold (g : Graph) (depth : Nat) (way : List Key) (key : Key)
    (kind : ObjectKind) : (g.unfold depth way key kind).entry.kind = kind := by
  rcases unfold_cases g depth way key kind with ⟨-, h⟩ | ⟨-, -, h⟩ | ⟨-, m, -, h⟩
  · rw [h]; rfl
  · rw [h]; rfl
  · rw [h]; rfl

/-! ## What stands at a place -/

/-- The tree at a place of an unfolding is the unfolding of what stands there, behind the
way to it. -/
theorem at_unfold (h : (g.unfold depth [] key kind).At way t) :
    way.Nodup ∧ ∃ m, way.length + m = depth
      ∧ t = g.unfold m way t.entry.key t.entry.kind := by
  induction h with
  | root => exact ⟨List.nodup_nil, depth, by simp, by simp⟩
  | @step way t s _ hmem ih =>
      obtain ⟨hnodup, m, hlen, heq⟩ := ih
      rcases unfold_cases g m way t.entry.key t.entry.kind with
        ⟨-, h⟩ | ⟨-, -, h⟩ | ⟨hkey, m', rfl, h⟩
      · rw [heq, h] at hmem
        cases hmem
      · rw [heq, h] at hmem
        cases hmem
      · refine ⟨List.nodup_cons.mpr ⟨hkey, hnodup⟩, m', ?_, ?_⟩
        · rw [List.length_cons]
          omega
        · rw [heq, h] at hmem
          obtain ⟨d, -, rfl⟩ := List.mem_map.mp hmem
          rw [key_unfold, kind_unfold]

/-- At a place stands what is circular, or what may not be unfolded further, or what has its
dependencies behind it. -/
theorem at_cases (h : (g.unfold depth [] key kind).At way t) :
    (t.entry.key ∈ way ∧ t =
        .node { g.treeEntry t.entry.key t.entry.kind with isCircular := true } [])
      ∨ (t.entry.key ∉ way ∧ way.length = depth ∧ t =
        .node { g.treeEntry t.entry.key t.entry.kind with
          isTruncated := !(g.dependsOn t.entry.key).isEmpty } [])
      ∨ (t.entry.key ∉ way ∧ way.length < depth ∧ ∃ m, t =
        .node (g.treeEntry t.entry.key t.entry.kind) ((g.dependsOn t.entry.key).map fun d =>
          g.unfold m (t.entry.key :: way) d.1 d.2)) := by
  obtain ⟨-, m, hlen, heq⟩ := at_unfold h
  rcases unfold_cases g m way t.entry.key t.entry.kind with
    ⟨hkey, h⟩ | ⟨hkey, rfl, h⟩ | ⟨hkey, m', rfl, h⟩
  · exact Or.inl ⟨hkey, heq.trans h⟩
  · exact Or.inr (Or.inl ⟨hkey, hlen, heq.trans h⟩)
  · exact Or.inr (Or.inr ⟨hkey, by omega, m', heq.trans h⟩)

theorem isUnfolding_unfold (g : Graph) (depth : Nat) (n : Node) :
    g.IsUnfolding depth n (g.unfold depth [] n.key n.kind) where
  key := key_unfold ..
  kind := kind_unfold ..
  nodup way t h := (at_unfold h).1
  entry way t h := by
    rcases at_cases h with ⟨-, heq⟩ | ⟨-, -, heq⟩ | ⟨-, -, m, heq⟩
    · rw [heq]; rfl
    · rw [heq]; rfl
    · rw [heq]; rfl
  circular way t h := by
    rcases at_cases h with ⟨hkey, heq⟩ | ⟨hkey, -, heq⟩ | ⟨hkey, -, m, heq⟩
    · exact iff_of_true (by rw [heq]; rfl) hkey
    · exact iff_of_false (by rw [heq]; simp [Tree.entry, treeEntry]) hkey
    · exact iff_of_false (by rw [heq]; simp [Tree.entry, treeEntry]) hkey
  closed way t h hcircular := by
    rcases at_cases h with ⟨-, heq⟩ | ⟨-, -, heq⟩ | ⟨-, -, m, heq⟩
    · rw [heq]
      exact ⟨rfl, rfl⟩
    · rw [heq] at hcircular
      cases hcircular
    · rw [heq] at hcircular
      cases hcircular
  last way t h hopen hlast := by
    rcases at_cases h with ⟨-, heq⟩ | ⟨-, -, heq⟩ | ⟨-, hlt, -⟩
    · rw [heq] at hopen
      cases hopen
    · refine ⟨by rw [heq]; rfl, ?_⟩
      have htruncated : t.entry.isTruncated = !(g.dependsOn t.entry.key).isEmpty := by
        rw [heq]
        rfl
      rw [htruncated, Bool.not_eq_true', List.isEmpty_eq_false_iff]
    · omega
  inner way t h hopen hinner := by
    rcases at_cases h with ⟨-, heq⟩ | ⟨-, hlast, -⟩ | ⟨-, -, m, heq⟩
    · rw [heq] at hopen
      cases hopen
    · exact absurd hlast hinner
    · have hdependencies : t.dependencies = (g.dependsOn t.entry.key).map fun d =>
          g.unfold m (t.entry.key :: way) d.1 d.2 := by
        rw [heq]
        rfl
      refine ⟨?_, by rw [heq]; rfl⟩
      rw [hdependencies, List.map_map]
      simp [Function.comp_def]

/-! ## There is one unfolding -/

namespace IsUnfolding

/-- What stands at a place is fixed by the way to it, its key and its kind. The induction is
on the tree at the place, so the trees behind it are fixed already. -/
theorem eq_unfold_of_at (h : g.IsUnfolding depth n root) {m : Nat} (hat : root.At way t)
    (hm : way.length + m = depth) : t = g.unfold m way t.entry.key t.entry.kind := by
  induction t generalizing way m with
  | node entry dependencies ih =>
      have hentry := h.entry way _ hat
      simp only [Tree.entry] at hentry ⊢
      by_cases hcircular : entry.isCircular = true
      · have hkey : entry.key ∈ way := (h.circular way _ hat).mp hcircular
        obtain ⟨hnil, htruncated⟩ := h.closed way _ hat hcircular
        simp only [Tree.dependencies, Tree.entry] at hnil htruncated
        rw [unfold_of_mem hkey, hnil]
        rw [hcircular, htruncated] at hentry
        exact congrArg (Tree.node · []) hentry
      · have hopen : entry.isCircular = false := Bool.not_eq_true _ ▸ hcircular
        have hkey : entry.key ∉ way := fun hmem =>
          hcircular ((h.circular way _ hat).mpr hmem)
        cases m with
        | zero =>
            obtain ⟨hnil, htruncated⟩ := h.last way _ hat hopen (by omega)
            simp only [Tree.dependencies, Tree.entry] at hnil htruncated
            have hmark : entry.isTruncated = !(g.dependsOn entry.key).isEmpty := by
              rw [Bool.eq_iff_iff, htruncated, Bool.not_eq_true', List.isEmpty_eq_false_iff]
            rw [unfold_zero hkey, hnil]
            rw [hopen, hmark] at hentry
            exact congrArg (Tree.node · []) hentry
        | succ m =>
            obtain ⟨hdependencies, htruncated⟩ := h.inner way _ hat hopen (by omega)
            simp only [Tree.dependencies, Tree.entry] at hdependencies htruncated
            have hchildren : dependencies = dependencies.map fun s =>
                g.unfold m (entry.key :: way) s.entry.key s.entry.kind := by
              refine (List.map_id _).symm.trans (List.map_congr_left fun s hs => ?_)
              exact ih s hs (.step hat hs) (by rw [List.length_cons]; omega)
            rw [unfold_succ hkey, ← hdependencies, List.map_map]
            rw [hopen, htruncated] at hentry
            exact congrArg₂ Tree.node hentry hchildren

theorem eq_unfold (h : g.IsUnfolding depth n root) :
    root = g.unfold depth [] n.key n.kind := by
  have heq := h.eq_unfold_of_at .root (Nat.zero_add depth)
  rwa [h.key, h.kind] at heq

/-! ## How deep it goes -/

/-- What stands behind a place is among the direct dependencies of what stands there. -/
theorem mem_dependsOn (h : g.IsUnfolding depth n root) (hat : root.At way t)
    (hs : s ∈ t.dependencies) : (s.entry.key, s.entry.kind) ∈ g.dependsOn t.entry.key := by
  have hopen : t.entry.isCircular = false := by
    refine Bool.eq_false_iff.mpr fun hcircular => ?_
    rw [(h.closed way t hat hcircular).1] at hs
    cases hs
  have hinner : way.length ≠ depth := by
    intro hlast
    rw [(h.last way t hat hopen hlast).1] at hs
    cases hs
  rw [← (h.inner way t hat hopen hinner).1]
  exact List.mem_map_of_mem hs

theorem length_le (h : g.IsUnfolding depth n root) (hat : root.At way t) :
    way.length ≤ depth := by
  rw [h.eq_unfold] at hat
  obtain ⟨-, m, hlen, -⟩ := at_unfold hat
  omega

end IsUnfolding

theorem mem_allKeys_of_mem_keys (h : key ∈ g.nodes.keys) : key ∈ g.allKeys :=
  List.mem_toFinset.mpr (List.mem_append_left _ h)

theorem mem_allKeys_of_mem_dependsOn {owner : Key} (h : (key, kind) ∈ g.dependsOn owner) :
    key ∈ g.allKeys := by
  have hedge : ∃ e ∈ g.edges, e.target = key := by
    simp only [dependsOn, List.mem_append, List.mem_map, Prod.mk.injEq] at h
    rcases h with ⟨k, hk, rfl, -⟩ | ⟨k, hk, rfl, -⟩
    · exact ⟨_, mem_targets.mp hk, rfl⟩
    · exact ⟨_, mem_targets.mp hk, rfl⟩
  obtain ⟨e, he, rfl⟩ := hedge
  refine List.mem_toFinset.mpr (List.mem_append_right _ ?_)
  exact List.mem_flatMap.mpr ⟨e, he, by simp⟩

theorem length_le_card_of_nodup {ks : List Key} (hnodup : ks.Nodup)
    (h : ∀ k ∈ ks, k ∈ g.allKeys) : ks.length ≤ g.allKeys.card := by
  rw [← List.toFinset_card_of_nodup hnodup]
  exact Finset.card_le_card fun k hk => h k (List.mem_toFinset.mp hk)

namespace IsUnfolding

theorem mem_allKeys (h : g.IsUnfolding depth n root) (hn : n.key ∈ g.nodes.keys)
    (hat : root.At way t) : t.entry.key ∈ g.allKeys ∧ ∀ k ∈ way, k ∈ g.allKeys := by
  induction hat with
  | root =>
      refine ⟨?_, fun k hk => by cases hk⟩
      rw [h.key]
      exact mem_allKeys_of_mem_keys hn
  | step hat hs ih =>
      refine ⟨mem_allKeys_of_mem_dependsOn (h.mem_dependsOn hat hs), fun k hk => ?_⟩
      rcases List.mem_cons.mp hk with rfl | hk
      · exact ih.1
      · exact ih.2 k hk

theorem length_le_card (h : g.IsUnfolding depth n root) (hn : n.key ∈ g.nodes.keys)
    (hat : root.At way t) : way.length ≤ g.allKeys.card :=
  length_le_card_of_nodup (h.nodup way t hat) (h.mem_allKeys hn hat).2

/-- A place that is not circular adds a key to those of its way. -/
theorem length_lt_card (h : g.IsUnfolding depth n root) (hn : n.key ∈ g.nodes.keys)
    (hat : root.At way t) (hopen : t.entry.isCircular = false) :
    way.length < g.allKeys.card := by
  have hkey : t.entry.key ∉ way := by
    intro hmem
    rw [(h.circular way t hat).mpr hmem] at hopen
    cases hopen
  have hnodup : (t.entry.key :: way).Nodup :=
    List.nodup_cons.mpr ⟨hkey, h.nodup way t hat⟩
  refine length_le_card_of_nodup hnodup fun k hk => ?_
  rcases List.mem_cons.mp hk with rfl | hk
  · exact (h.mem_allKeys hn hat).1
  · exact (h.mem_allKeys hn hat).2 k hk

end IsUnfolding

theorem isTreeOf_unfold (g : Graph) (depth : Nat) (hn : n.key ∈ g.nodes.keys) :
    g.IsTreeOf depth n (g.unfold depth [] n.key n.kind) where
  unfolding u := by
    refine ⟨fun h => h.eq_unfold, ?_⟩
    rintro rfl
    exact isUnfolding_unfold g depth n
  depth_le := by
    have h := isUnfolding_unfold g depth n
    rw [Tree.depth_le_iff]
    intro way t hat
    exact le_min (h.length_le hat) (h.length_le_card hn hat)

/-! ## The trees of a graph -/

theorem key_mem_of_find? (hg : g.Keyed) {table name : String}
    (h : g.find? table name = some n) : n.key ∈ g.nodes.keys := by
  obtain ⟨k, -, hnode⟩ := Option.bind_eq_some_iff.mp h
  rw [hg k n hnode]
  exact SortedMap.mem_keys_iff.mpr ⟨n, hnode⟩

theorem key_mem_of_findKey? (hg : g.Keyed) (h : g.findKey? key = some n) :
    n.key ∈ g.nodes.keys := by
  rw [findKey?, Option.or_eq_some_iff] at h
  rcases h with hnode | ⟨-, hspelled⟩
  · rw [hg key n hnode]
    exact SortedMap.mem_keys_iff.mpr ⟨n, hnode⟩
  · obtain ⟨r, -, hfound⟩ := Option.bind_eq_some_iff.mp hspelled
    exact key_mem_of_find? hg hfound

theorem tree?_of_findKey? (h : g.findKey? key = some n) (depth : Nat) :
    g.tree? key depth = some (g.unfold depth [] n.key n.kind) := by
  rw [tree?, h]
  rfl

theorem measureTree?_eq_some_iff {table name : String} :
    g.measureTree? table name depth = some t ↔ ∃ n, g.find? table name = some n
      ∧ n.kind = .measure ∧ g.unfold depth [] n.key n.kind = t := by
  rw [measureTree?, Option.map_eq_some_iff]
  simp only [Option.filter_eq_some_iff, beq_iff_eq, and_assoc]

/-- Whatever its catalog, index, rules and bindings, a graph has a tree for every key it
knows and every depth: the one that unfolds the node of the key, cut off by the depth or by
the number of keys. The tree of a measure is the one of its node. -/
theorem exists_tree?_isTreeOf (c : Catalog) (index : Formula.Index) (rules : UsageRules)
    (bs : List Binding) :
    let g := reported c index rules bs
    (∀ key n, g.findKey? key = some n → ∀ depth,
        ∃ t, g.tree? key depth = some t ∧ g.IsTreeOf depth n t)
      ∧ ∀ table name depth t, g.measureTree? table name depth = some t →
        ∃ n, g.find? table name = some n ∧ n.kind = .measure ∧ g.IsTreeOf depth n t := by
  intro g
  have hg : g.Keyed := keyed_build c index
  refine ⟨?_, ?_⟩
  · intro key n hfind depth
    exact ⟨_, tree?_of_findKey? hfind depth,
      isTreeOf_unfold g depth (key_mem_of_findKey? hg hfind)⟩
  · intro table name depth t htree
    obtain ⟨n, hfind, hkind, rfl⟩ := measureTree?_eq_some_iff.mp htree
    exact ⟨n, hfind, hkind, isTreeOf_unfold g depth (key_mem_of_find? hg hfind)⟩

/-- Three measures in a circle, the last of which also has a name that no table owns. -/
def threeInCircle : Catalog where
  tables :=
    [{ name := "T"
       measures :=
        [{ table := "T", name := "A", expression := "[B] + 1" },
         { table := "T", name := "B", expression := "[C] * 2" },
         { table := "T", name := "C", expression := "[A] + [Ghost]" }] }]

theorem exists_tree?_isTreeOf_threeInCircle :
    let g := reported threeInCircle (.ofCatalog threeInCircle) {} []
    let n := Node.ofMeasure { table := "T", name := "A", expression := "[B] + 1" }
    (g.findKey? "t[a]" = some n ∧ ∃ t, g.tree? "t[a]" 9 = some t ∧ g.IsTreeOf 9 n t)
      ∧ g.measureTree? "T" "A" 2 = some (g.unfold 2 [] n.key n.kind)
      ∧ ∃ m, g.find? "T" "A" = some m ∧ m.kind = .measure
        ∧ g.IsTreeOf 2 m (g.unfold 2 [] n.key n.kind) := by
  intro g n
  have hkey : g.findKey? "t[a]" = some n := by decide +kernel
  have hfind : g.find? "T" "A" = some n := by decide +kernel
  have htree : g.measureTree? "T" "A" 2 = some (g.unfold 2 [] n.key n.kind) :=
    measureTree?_eq_some_iff.mpr ⟨n, hfind, rfl, rfl⟩
  have h := exists_tree?_isTreeOf threeInCircle (.ofCatalog threeInCircle) {} []
  exact ⟨⟨hkey, h.1 "t[a]" n hkey 9⟩, htree, h.2 "T" "A" 2 _ htree⟩

end Graph

end Tabular.Dependency
