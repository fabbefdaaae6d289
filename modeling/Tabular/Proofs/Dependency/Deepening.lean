import Tabular.Proofs.Dependency.Direct
import Tabular.Proofs.Dependency.Unfolding

/-!
# Deeper dependency trees

A deeper tree shows all that a shallower one shows, and the shallower one is the deeper one
cut off at its level. From some depth on nothing is cut off any more: as soon as a tree may
be as deep as the graph has keys, every place that is not circular has its dependencies
behind it, since the keys on the way to it and its own key are all different.

Such a tree shows what can be reached, though every way through it ends where a key comes
up for the second time. A key that is shown at a circular place is also shown above that
place, where it is unfolded; so what is shown is closed under dependencies. And it shows
every circle: if no place were circular, a circle could be followed down from the first of
its keys until this key comes up again, below itself.
-/

namespace Tabular.Dependency

open Relation (ReflTransGen TransGen)

/-- A tree without what stands below a level. What had trees below it there is marked as
truncated. -/
def Tree.cut : (level : Nat) → Tree → Tree
  | 0, node e dependencies =>
      node { e with isTruncated := e.isTruncated || !dependencies.isEmpty } []
  | level + 1, node e dependencies => node e (dependencies.map (cut level))

namespace Graph

/-- A tree that shows all that its root depends on. -/
structure IsComplete (g : Graph) (n : Node) (root : Tree) : Prop where
  whole : ∀ way t, root.At way t → t.entry.isTruncated = false
  keys : ∀ key, (∃ way t, root.At way t ∧ t.entry.key = key) ↔
    ReflTransGen g.Lists n.key key
  cycle : root.hasCycle = true ↔
    ∃ key, ReflTransGen g.Lists n.key key ∧ TransGen g.Lists key key

variable {g : Graph} {depth : Nat} {key : Key} {way : List Key} {root t s : Tree} {n : Node}

/-! ## Cutting -/

/-- Unfolding less is cutting what was unfolded. -/
theorem cut_unfold (g : Graph) (depth more : Nat) (way : List Key) (key : Key)
    (kind : ObjectKind) :
    (g.unfold (depth + more) way key kind).cut depth = g.unfold depth way key kind := by
  induction depth generalizing way key kind with
  | zero =>
      by_cases hkey : key ∈ way
      · rw [unfold_of_mem hkey, unfold_of_mem hkey]
        rfl
      · rw [unfold_zero hkey, Nat.zero_add]
        cases more with
        | zero =>
            rw [unfold_zero hkey]
            simp [Tree.cut]
        | succ more =>
            rw [unfold_succ hkey]
            simp [Tree.cut, treeEntry]
  | succ depth ih =>
      by_cases hkey : key ∈ way
      · rw [unfold_of_mem hkey, unfold_of_mem hkey]
        rfl
      · rw [Nat.add_right_comm, unfold_succ hkey, unfold_succ hkey, Tree.cut, List.map_map]
        refine congrArg (Tree.node _) (List.map_congr_left fun d _ => ?_)
        exact ih (key :: way) d.1 d.2

theorem tree?_cut (g : Graph) (key : Key) {d d' : Nat} (hle : d ≤ d') :
    g.tree? key d = (g.tree? key d').map (·.cut d) := by
  obtain ⟨more, rfl⟩ := Nat.exists_eq_add_of_le hle
  simp only [tree?, Option.map_map]
  exact Option.map_congr fun n _ => (cut_unfold g d more [] n.key n.kind).symm

theorem measureTree?_cut (g : Graph) (table name : String) {d d' : Nat} (hle : d ≤ d') :
    g.measureTree? table name d = (g.measureTree? table name d').map (·.cut d) := by
  obtain ⟨more, rfl⟩ := Nat.exists_eq_add_of_le hle
  simp only [measureTree?, Option.map_map]
  exact Option.map_congr fun n _ => (cut_unfold g d more [] n.key n.kind).symm

/-! ## Ways are paths of dependencies -/

namespace IsUnfolding

theorem lists_of_mem (h : g.IsUnfolding depth n root) (hat : root.At way t)
    (hs : s ∈ t.dependencies) : g.Lists t.entry.key s.entry.key :=
  ⟨s.entry.kind, h.mem_dependsOn hat hs⟩

theorem reflTransGen_of_at (h : g.IsUnfolding depth n root) (hat : root.At way t) :
    ReflTransGen g.Lists n.key t.entry.key := by
  induction hat with
  | root => rw [h.key]
  | step hat hs ih => exact ih.tail (h.lists_of_mem hat hs)

/-- What stands on a way leads to its end. -/
theorem transGen_of_mem_way (h : g.IsUnfolding depth n root) (hat : root.At way t)
    (hkey : key ∈ way) : TransGen g.Lists key t.entry.key := by
  induction hat with
  | root => cases hkey
  | step hat hs ih =>
      rcases List.mem_cons.mp hkey with rfl | hkey
      · exact .single (h.lists_of_mem hat hs)
      · exact (ih hkey).tail (h.lists_of_mem hat hs)

/-- A key that is shown is shown at a place that is not circular. -/
theorem exists_open (h : g.IsUnfolding depth n root) (hat : root.At way t) :
    ∃ way' s, root.At way' s ∧ s.entry.key = t.entry.key ∧ s.entry.isCircular = false := by
  cases hcircular : t.entry.isCircular with
  | false => exact ⟨way, t, hat, rfl, hcircular⟩
  | true =>
      have hmem := (h.circular way t hat).mp hcircular
      obtain ⟨way', s, hat', hkey, hne⟩ := hat.exists_of_mem hmem
      refine ⟨way', s, hat', hkey, Bool.eq_false_iff.mpr fun hs => ?_⟩
      exact hne (h.closed way' s hat' hs).1

/-! ## Trees that are deep enough -/

section Deep

variable (h : g.IsUnfolding depth n root) (hn : n.key ∈ g.nodes.keys)
  (hdeep : g.allKeys.card ≤ depth)
include h hn hdeep

/-- Whatever is not circular stands above the last level. -/
theorem inner_of_open (hat : root.At way t) (hopen : t.entry.isCircular = false) :
    t.dependencies.map (fun s => (s.entry.key, s.entry.kind)) = g.dependsOn t.entry.key
      ∧ t.entry.isTruncated = false := by
  have hlt := h.length_lt_card hn hat hopen
  exact h.inner way t hat hopen (by omega)

theorem whole (hat : root.At way t) : t.entry.isTruncated = false := by
  cases hcircular : t.entry.isCircular with
  | false => exact (h.inner_of_open hn hdeep hat hcircular).2
  | true => exact (h.closed way t hat hcircular).2

/-- Behind a place that is not circular stands whatever its key depends on. -/
theorem exists_mem_of_lists (hat : root.At way t) (hopen : t.entry.isCircular = false)
    (hlists : g.Lists t.entry.key key) : ∃ s ∈ t.dependencies, s.entry.key = key := by
  obtain ⟨kind, hmem⟩ := hlists
  rw [← (h.inner_of_open hn hdeep hat hopen).1] at hmem
  obtain ⟨s, hs, heq⟩ := List.mem_map.mp hmem
  exact ⟨s, hs, congrArg Prod.fst heq⟩

theorem exists_at_of_reflTransGen (hreach : ReflTransGen g.Lists n.key key) :
    ∃ way t, root.At way t ∧ t.entry.key = key := by
  induction hreach with
  | refl => exact ⟨[], root, .root, h.key⟩
  | tail _ hlists ih =>
      obtain ⟨way, t, hat, rfl⟩ := ih
      obtain ⟨way', s, hat', hkey, hopen⟩ := h.exists_open hat
      rw [← hkey] at hlists
      obtain ⟨u, hu, rfl⟩ := h.exists_mem_of_lists hn hdeep hat' hopen hlists
      exact ⟨_, u, .step hat' hu, rfl⟩

/-- A path can be followed down a tree that has no cycle. -/
theorem exists_at_of_transGen (hnone : root.hasCycle = false) (hat : root.At way t)
    (hpath : TransGen g.Lists t.entry.key key) :
    ∃ way' s, root.At way' s ∧ s.entry.key = key ∧ t.entry.key ∈ way' := by
  have hopen : ∀ way s, root.At way s → s.entry.isCircular = false := by
    intro way s hs
    refine Bool.eq_false_iff.mpr fun hcircular => ?_
    rw [Tree.hasCycle_iff.mpr ⟨way, s, hs, hcircular⟩] at hnone
    cases hnone
  induction hpath with
  | single hlists =>
      obtain ⟨s, hs, rfl⟩ := h.exists_mem_of_lists hn hdeep hat (hopen way t hat) hlists
      exact ⟨_, s, .step hat hs, rfl, List.mem_cons_self⟩
  | tail _ hlists ih =>
      obtain ⟨way', s, hat', rfl, hmem⟩ := ih
      obtain ⟨u, hu, rfl⟩ :=
        h.exists_mem_of_lists hn hdeep hat' (hopen way' s hat') hlists
      exact ⟨_, u, .step hat' hu, rfl, List.mem_cons_of_mem _ hmem⟩

theorem hasCycle_of_transGen (hreach : ReflTransGen g.Lists n.key key)
    (hcircle : TransGen g.Lists key key) : root.hasCycle = true := by
  by_contra hnone
  obtain ⟨way, t, hat, rfl⟩ := h.exists_at_of_reflTransGen hn hdeep hreach
  obtain ⟨way', s, hat', hkey, hmem⟩ :=
    h.exists_at_of_transGen hn hdeep (Bool.eq_false_iff.mpr hnone) hat hcircle
  rw [← hkey] at hmem
  exact hnone (Tree.hasCycle_iff.mpr ⟨way', s, hat', (h.circular way' s hat').mpr hmem⟩)

theorem isComplete : g.IsComplete n root where
  whole _ _ hat := h.whole hn hdeep hat
  keys key := by
    refine ⟨?_, h.exists_at_of_reflTransGen hn hdeep⟩
    rintro ⟨way, t, hat, rfl⟩
    exact h.reflTransGen_of_at hat
  cycle := by
    refine ⟨?_, fun ⟨key, hreach, hcircle⟩ => h.hasCycle_of_transGen hn hdeep hreach hcircle⟩
    intro hcycle
    obtain ⟨way, t, hat, hcircular⟩ := Tree.hasCycle_iff.mp hcycle
    have hmem := (h.circular way t hat).mp hcircular
    exact ⟨t.entry.key, h.reflTransGen_of_at hat, h.transGen_of_mem_way hat hmem⟩

end Deep

end IsUnfolding

/-- A shallower tree is a deeper one cut at its level, and a tree that may be as deep as the
graph has keys shows all that its root depends on. -/
theorem tree?_deepened (c : Catalog) (index : Formula.Index) (rules : UsageRules)
    (bs : List Binding) :
    let g := reported c index rules bs
    (∀ d d', d ≤ d' →
        (∀ key, g.tree? key d = (g.tree? key d').map (·.cut d))
          ∧ ∀ table name,
            g.measureTree? table name d = (g.measureTree? table name d').map (·.cut d))
      ∧ ∀ d, g.allKeys.card ≤ d →
        (∀ key n, g.findKey? key = some n →
            ∃ t, g.tree? key d = some t ∧ g.IsComplete n t)
          ∧ ∀ table name n, g.find? table name = some n → n.kind = .measure →
            ∃ t, g.measureTree? table name d = some t ∧ g.IsComplete n t := by
  intro g
  have hg : g.Keyed := keyed_build c index
  refine ⟨?_, ?_⟩
  · intro d d' hle
    exact ⟨fun key => tree?_cut g key hle, fun table name => measureTree?_cut g table name hle⟩
  · intro d hdeep
    refine ⟨?_, ?_⟩
    · intro key n hfind
      exact ⟨_, tree?_of_findKey? hfind d,
        (isUnfolding_unfold g d n).isComplete (key_mem_of_findKey? hg hfind) hdeep⟩
    · intro table name n hfind hkind
      exact ⟨_, measureTree?_eq_some_iff.mpr ⟨n, hfind, hkind, rfl⟩,
        (isUnfolding_unfold g d n).isComplete (key_mem_of_find? hg hfind) hdeep⟩

theorem tree?_deepened_threeInCircle :
    let g := reported threeInCircle (.ofCatalog threeInCircle) {} []
    let n := Node.ofMeasure { table := "T", name := "A", expression := "[B] + 1" }
    (2 ≤ 9 ∧ g.tree? "T[A]" 2 = (g.tree? "T[A]" 9).map (·.cut 2))
      ∧ (g.allKeys.card ≤ 4 ∧ g.findKey? "T[A]" = some n
        ∧ ∃ t, g.tree? "T[A]" 4 = some t ∧ g.IsComplete n t)
      ∧ g.find? "t" "a" = some n ∧ n.kind = .measure
        ∧ ∃ t, g.measureTree? "t" "a" 4 = some t ∧ g.IsComplete n t := by
  intro g n
  have hdeep : g.allKeys.card ≤ 4 := by decide +kernel
  have hkey : g.findKey? "T[A]" = some n := by decide +kernel
  have hfind : g.find? "t" "a" = some n := by decide +kernel
  have h := tree?_deepened threeInCircle (.ofCatalog threeInCircle) {} []
  exact ⟨⟨by decide, (h.1 2 9 (by decide)).1 "T[A]"⟩,
    ⟨hdeep, hkey, (h.2 4 hdeep).1 "T[A]" n hkey⟩,
    hfind, rfl, (h.2 4 hdeep).2 "t" "a" n hfind rfl⟩

end Graph

end Tabular.Dependency
