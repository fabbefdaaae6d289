import Tabular.Proofs.Dependency.Cycles
import Tabular.Proofs.Dependency.Direct

/-!
# Paths and circles

There is a path from one object to another when the second is among the dependents of the
first. The dependents of an object leave out the object itself, and so a path is found
wherever a chain of edges leads from one key to a different one, and never from a key to
itself, also where a chain of edges does lead back to it.

The keys that a chain leads back to are known without any path: those with an edge to
themselves, and those of the groups that `cycles` shows. An edge of the first sort takes
two names that are joined to one key, so that a plain catalog has none, and there all paths
are what the chains are exactly when there is no cycle.
-/

namespace Tabular.Dependency

open Ordered Formula
open Relation (ReflTransGen TransGen)

namespace Graph

/-- Whether the answer for a path is what the edges say: a chain of one or more edges leads
from the second object to the first. -/
def PathAgrees (g : Graph) (source target : Key) : Prop :=
  g.hasPath source target = true ↔
    TransGen g.DependsOn (g.canonical target) (g.canonical source)

/-- Whether an edge leads from a key to itself, or the key is in a group that is shown. -/
def OnCircle (g : Graph) (key : Key) : Prop :=
  g.DependsOn key key ∨ ∃ group ∈ g.cycles, key ∈ group

variable {g : Graph} {c : Catalog} {index : Index} {source target key : Key}

/-- A path is missed only from a key to itself. -/
theorem pathAgrees_iff_not_transGen :
    g.PathAgrees source target ↔
      ¬ (g.canonical source = g.canonical target
        ∧ TransGen g.DependsOn (g.canonical source) (g.canonical source)) := by
  rw [PathAgrees, hasPath_iff]
  by_cases heq : g.canonical source = g.canonical target
  · simp [heq]
  · have hchain : ReflTransGen g.DependsOn (g.canonical target) (g.canonical source) ↔
        TransGen g.DependsOn (g.canonical target) (g.canonical source) := by
      rw [Relation.reflTransGen_iff_eq_or_transGen, or_iff_right heq]
    simp [heq, hchain, ne_comm]

theorem mem_nodes_keys_of_dependsOn (h : (build c index).DependsOn source target) :
    source ∈ (build c index).nodes.keys := by
  obtain ⟨f, hf, rfl, -⟩ := dependsOn_build_iff.mp h
  exact key_mem_nodes_keys hf

theorem exists_mem_ne {group : List Key} (hsorted : group.Pairwise (· < ·))
    (hlen : 1 < group.length) (key : Key) : ∃ other ∈ group, other ≠ key := by
  match group with
  | [] => simp at hlen
  | [_] => simp at hlen
  | first :: second :: rest =>
      by_cases heq : first = key
      · have hlt := List.rel_of_pairwise_cons hsorted (List.mem_cons_self (l := rest))
        exact ⟨second, by simp, fun h => String.ne_of_lt hlt (heq.trans h.symm)⟩
      · exact ⟨first, by simp, heq⟩

/-- Keys of one group depend on themselves by way of each other. -/
theorem transGen_of_mem_cycles {group : List Key} (hgroup : group ∈ g.cycles)
    (hkey : key ∈ group) : TransGen g.DependsOn key key := by
  obtain ⟨first, -, rfl, hlen, -⟩ := mem_cycles.mp hgroup
  obtain ⟨other, hother, hne⟩ := exists_mem_ne (circle_pairwise_lt g first) hlen key
  obtain ⟨hthere, hback⟩ := circular_of_mem_cycles hgroup hkey hother
  rcases Relation.reflTransGen_iff_eq_or_transGen.mp hthere with heq | hthere
  · exact absurd heq hne
  · exact hthere.trans_left hback

/-- A chain of edges leads from a key to itself exactly when the key is on a circle. -/
theorem transGen_self_iff_onCircle :
    TransGen (build c index).DependsOn key key ↔ (build c index).OnCircle key := by
  constructor
  · intro h
    obtain ⟨next, hstep, hback⟩ := Relation.TransGen.head'_iff.mp h
    by_cases heq : next = key
    · exact Or.inl (heq ▸ hstep)
    · -- the chain goes on from the next key, which therefore owns a formula
      have hnext : next ∈ (build c index).nodes.keys := by
        rcases Relation.ReflTransGen.cases_head hback with hend | ⟨after, hstep', -⟩
        · exact absurd hend heq
        · exact mem_nodes_keys_of_dependsOn hstep'
      have hkey := mem_nodes_keys_of_dependsOn hstep
      exact Or.inr ⟨(build c index).circle key,
        circle_mem_cycles hkey hnext (Ne.symm heq) ⟨.single hstep, hback⟩,
        mem_circle.mpr ⟨hkey, Circular.refl _ key⟩⟩
  · rintro (hstep | ⟨group, hgroup, hkey⟩)
    · exact .single hstep
    · exact transGen_of_mem_cycles hgroup hkey

/-- Whatever the catalog, the index, the rules and the bindings of a graph, there is a path
where a chain of edges is, unless it is asked for from an object to itself and the object
is on a circle. -/
theorem pathAgrees_iff_not_onCircle (c : Catalog) (index : Index) (rules : UsageRules)
    (bs : List Binding) (source target : Key) :
    let g := reported c index rules bs
    g.PathAgrees source target ↔
      ¬ (g.canonical source = g.canonical target ∧ g.OnCircle (g.canonical source)) := by
  intro g
  rw [pathAgrees_iff_not_transGen]
  exact not_congr (and_congr_right fun _ => transGen_self_iff_onCircle)

/-- Two measures that refer to each other. -/
def twoInCircle : Catalog where
  tables :=
    [{ name := "T"
       measures :=
        [{ table := "T", name := "A", expression := "[B]" },
         { table := "T", name := "B", expression := "[A] + 1" }] }]

theorem not_pathAgrees_twoInCircle :
    ¬ (ofCatalog twoInCircle).PathAgrees "T[A]" "T[A]"
      ∧ (ofCatalog twoInCircle).hasPath "T[A]" "T[A]" = false
      ∧ (ofCatalog twoInCircle).hasPath "T[A]" "T[B]" = true
      ∧ (ofCatalog twoInCircle).hasPath "T[B]" "T[A]" = true := by
  have hnone : (ofCatalog twoInCircle).hasPath "T[A]" "T[A]" = false := by decide +kernel
  refine ⟨?_, hnone, by decide +kernel, by decide +kernel⟩
  intro h
  have hself : (ofCatalog twoInCircle).canonical "T[A]" = "T[A]" := by decide +kernel
  have hthere : (ofCatalog twoInCircle).DependsOn "T[A]" "T[B]" :=
    mem_forward.mp (by decide +kernel)
  have hback : (ofCatalog twoInCircle).DependsOn "T[B]" "T[A]" :=
    mem_forward.mp (by decide +kernel)
  have hpath := h.mpr (by rw [hself]; exact .tail (.single hthere) hback)
  rw [hnone] at hpath
  exact Bool.false_ne_true hpath

/-! ## Plain catalogs -/

section Plain

variable (hplain : ∀ n ∈ Node.ofCatalog c, n.object.Plain)
include hplain

/-- References of a formula to its own owner make no edges. -/
theorem not_dependsOn_self : ¬ (build c index).DependsOn key key := by
  intro h
  obtain ⟨f, hf, rfl, hleads⟩ := dependsOn_build_iff.mp h
  obtain ⟨n, hn, hkey, -⟩ := OwnedFormula.exists_owner hf
  have hother : ∀ kind, ∀ r ∈ referencesOfKind f.references kind, r.key ≠ f.key := by
    intro kind r hr heq
    have hsame : r = n.object := ObjectRef.eq_of_key_eq (hplain n hn) (heq.trans hkey.symm)
    exact key_ne_of_mem hplain hf kind hr hn (congrArg ObjectRef.normalized hsame.symm)
      hkey.symm
  rcases hleads with ⟨r, hr, heq⟩ | ⟨r, hr, heq⟩
  · exact hother .measure r hr heq
  · rw [OwnedFormula.columnTarget] at heq
    cases hfirst : firstNamed? c r.normalized with
    | none =>
        rw [hfirst] at heq
        exact hother .column r hr heq
    | some m =>
        rw [hfirst] at heq
        obtain ⟨hm, hsame⟩ := mem_ofCatalog_of_firstNamed? hfirst
        exact key_ne_of_mem hplain hf .column hr hm hsame heq.symm

/-- In a plain catalog, all paths are where chains of edges are exactly when there is no
cycle. -/
theorem pathAgrees_iff_of_plain :
    (∀ source target, (build c index).PathAgrees source target) ↔
      (build c index).cycles = [] := by
  simp only [pathAgrees_iff_not_transGen, transGen_self_iff_onCircle, OnCircle,
    not_dependsOn_self hplain, false_or]
  constructor
  · intro h
    refine List.eq_nil_iff_forall_not_mem.mpr fun group hgroup => ?_
    obtain ⟨key, hkey, -, -, hhead⟩ := mem_cycles.mp hgroup
    have hself : (build c index).canonical key = key := canonical_of_mem hkey
    refine h key key ⟨rfl, group, hgroup, ?_⟩
    rw [hself]
    exact List.mem_of_mem_head? hhead
  · rintro h source target ⟨-, group, hgroup, -⟩
    rw [h] at hgroup
    exact List.not_mem_nil hgroup

end Plain

end Graph

end Tabular.Dependency
