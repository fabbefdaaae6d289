import Tabular.Dependency.Tree

/-!
# Places in a dependency tree

A place in a tree is known by the way to it, the keys of what stands above it, the nearest
first. What is counted or searched for in a tree by recursion is said here of its places:
the depth is the length of the longest way, and a tree has a cycle when some place of it is
marked as circular.

Both are inductions over the tree. A tree holds the trees below it in a list, so the
induction hypothesis is one for each of them.
-/

namespace Tabular.Dependency.Tree

@[elab_as_elim, induction_eliminator]
theorem inductionOn {motive : Tree → Prop}
    (node : ∀ entry dependencies, (∀ t ∈ dependencies, motive t) →
      motive (.node entry dependencies)) (t : Tree) : motive t := by
  refine @Tree.rec motive (fun ts => ∀ t ∈ ts, motive t) node ?_ ?_ t
  · intro t ht
    cases ht
  · intro head tail hhead htail t ht
    rcases List.mem_cons.mp ht with rfl | hmem
    · exact hhead
    · exact htail t hmem

/-- What stands in a tree at the end of a way. -/
inductive At (root : Tree) : (way : List Key) → Tree → Prop
  | root : At root [] root
  | step {way : List Key} {t s : Tree} :
      At root way t → s ∈ t.dependencies → At root (t.entry.key :: way) s

variable {root t s : Tree} {way : List Key}

/-- A way that begins one level down. -/
theorem At.under {child : Tree} (hchild : child ∈ root.dependencies)
    (h : child.At way t) : root.At (way ++ [root.entry.key]) t := by
  induction h with
  | root => exact .step .root hchild
  | step _ hmem ih => exact .step ih hmem

/-- A way is empty, or begins one level down. -/
theorem At.cases_root (h : root.At way t) :
    (way = [] ∧ t = root) ∨ ∃ child ∈ root.dependencies, ∃ way',
      way = way' ++ [root.entry.key] ∧ child.At way' t := by
  induction h with
  | root => exact Or.inl ⟨rfl, rfl⟩
  | @step way t s _ hmem ih =>
      rcases ih with ⟨rfl, rfl⟩ | ⟨child, hchild, way', rfl, hat⟩
      · exact Or.inr ⟨s, hmem, [], rfl, .root⟩
      · exact Or.inr ⟨child, hchild, t.entry.key :: way', rfl, .step hat hmem⟩

/-- What stands above a place has trees below it. -/
theorem At.exists_of_mem (h : root.At way t) {key : Key} (hkey : key ∈ way) :
    ∃ way' s, root.At way' s ∧ s.entry.key = key ∧ s.dependencies ≠ [] := by
  induction h with
  | root => cases hkey
  | @step way t s hat hmem ih =>
      rcases List.mem_cons.mp hkey with rfl | hkey
      · exact ⟨way, t, hat, rfl, List.ne_nil_of_mem hmem⟩
      · exact ih hkey

/-! ## The depth -/

theorem lt_depths_of_mem {ts : List Tree} (h : t ∈ ts) : t.depth < depths ts := by
  induction ts with
  | nil => cases h
  | cons s rest ih =>
      rw [depths]
      rcases List.mem_cons.mp h with rfl | hmem
      · omega
      · have := ih hmem
        omega

theorem exists_depths_eq {ts : List Tree} (h : ts ≠ []) :
    ∃ t ∈ ts, depths ts = t.depth + 1 := by
  induction ts with
  | nil => exact absurd rfl h
  | cons s rest ih =>
      rw [depths]
      by_cases hrest : rest = []
      · subst hrest
        exact ⟨s, List.mem_cons_self, by simp [depths]⟩
      · obtain ⟨t, ht, heq⟩ := ih hrest
        rcases Nat.le_total (s.depth + 1) (depths rest) with hle | hle
        · exact ⟨t, List.mem_cons_of_mem s ht, by omega⟩
        · exact ⟨s, List.mem_cons_self, by omega⟩

theorem At.length_add_depth_le (h : root.At way t) :
    way.length + t.depth ≤ root.depth := by
  induction h with
  | root => simp
  | @step way t s _ hmem ih =>
      have hlt : s.depth < t.depth := by
        obtain ⟨entry, dependencies⟩ := t
        rw [depth]
        exact lt_depths_of_mem hmem
      rw [List.length_cons]
      omega

/-- Some way is as long as the tree is deep. -/
theorem exists_at_depth (root : Tree) : ∃ way t, root.At way t ∧ way.length = root.depth := by
  induction root with
  | node entry dependencies ih =>
      by_cases hnil : dependencies = []
      · subst hnil
        exact ⟨[], _, .root, rfl⟩
      · obtain ⟨child, hchild, heq⟩ := exists_depths_eq hnil
        obtain ⟨way, t, hat, hlen⟩ := ih child hchild
        refine ⟨way ++ [entry.key], t, .under hchild hat, ?_⟩
        rw [List.length_append, depth, heq, hlen]
        rfl

theorem depth_le_iff {bound : Nat} :
    root.depth ≤ bound ↔ ∀ way t, root.At way t → way.length ≤ bound := by
  refine ⟨?_, ?_⟩
  · intro h way t hat
    have := hat.length_add_depth_le
    omega
  · intro h
    obtain ⟨way, t, hat, hlen⟩ := exists_at_depth root
    have := h way t hat
    omega

/-! ## Cycles -/

theorem haveCycle_iff {ts : List Tree} :
    haveCycle ts = true ↔ ∃ t ∈ ts, t.hasCycle = true := by
  induction ts with
  | nil => simp [haveCycle]
  | cons t rest ih => simp [haveCycle, ih]

theorem hasCycle_iff :
    root.hasCycle = true ↔ ∃ way t, root.At way t ∧ t.entry.isCircular = true := by
  induction root with
  | node entry dependencies ih =>
      rw [hasCycle, Bool.or_eq_true, haveCycle_iff]
      refine ⟨?_, ?_⟩
      · intro h
        rcases h with hentry | ⟨child, hchild, hcycle⟩
        · exact ⟨[], _, .root, hentry⟩
        · obtain ⟨way, t, hat, hcircular⟩ := (ih child hchild).mp hcycle
          exact ⟨_, t, .under hchild hat, hcircular⟩
      · intro h
        obtain ⟨way, t, hat, hcircular⟩ := h
        rcases hat.cases_root with ⟨-, rfl⟩ | ⟨child, hchild, way', -, hat'⟩
        · exact Or.inl hcircular
        · exact Or.inr ⟨child, hchild, (ih child hchild).mpr ⟨way', t, hat', hcircular⟩⟩

end Tabular.Dependency.Tree
