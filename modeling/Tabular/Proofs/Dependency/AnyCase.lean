import Mathlib.Data.List.Nodup
import Tabular.Catalog.OfDefinition
import Tabular.Definition.Document
import Tabular.Dependency.Impact
import Tabular.Dependency.Tree
import Tabular.Proofs.Dependency.Nodes
import Tabular.Proofs.Object

/-!
# Keys in any case

What is asked for a key is asked for the node that is found for it. A key that no node has is
taken apart at its first bracket, and the table and the name that it spells are looked up in
lowercase. Keys with one lowercase spell one table and one name up to case, so they all lead to
one place.

It need not be the place of the node whose key it is. A table may have a bracket in its name,
and then its keys are taken apart too early; and the lowercase key of what they spell may
belong to another node, where names hold bars. So a node is found in any case exactly when what
its key spells leads back to it, or when there is no other spelling. In a catalog whose
objects differ in more than case it is enough that tables have neither mark in their names,
whatever the names of their measures and columns are.
-/

namespace Tabular.Dependency

open Formula Text

namespace Graph

/-- Whatever is asked for either of two keys has one answer. -/
structure AnsweredAlike (g : Graph) (a b : Key) : Prop where
  references : g.references? a = g.references? b
  dependsOn : g.dependsOn a = g.dependsOn b
  dependents : ∀ kind, g.dependents kind a = g.dependents kind b
  allDependencies : g.allDependencies a = g.allDependencies b
  allDependents : g.allDependents a = g.allDependents b
  impact : g.impact a = g.impact b
  tree : ∀ depth, g.tree? a depth = g.tree? b depth

/-- Every node is found under its key in any case, and has the same answers there. -/
structure KeysInAnyCase (g : Graph) : Prop where
  found : ∀ n, g.nodes.get? n.key = some n → ∀ key, fold key = fold n.key →
    g.findKey? key = some n
  answered : ∀ n, g.nodes.get? n.key = some n → ∀ key, fold key = fold n.key →
    g.AnsweredAlike key n.key

/-- The key of a node has no other spelling, or the lowercase key of what it spells belongs to
an object with the same key. -/
def KeysReadable (c : Catalog) : Prop :=
  ∀ n, firstWithKey? c n.key = some n →
    (∀ key, fold key = fold n.key → key = n.key) ∨
      ∃ m, firstNamed? c n.object.spelled.normalized = some m ∧ m.key = n.key

variable {c : Catalog} {index : Index} {rules : UsageRules} {bs : List Binding}

theorem answeredAlike_of_findKey? {g : Graph} {a b : Key} {n : Node}
    (ha : g.findKey? a = some n) (hb : g.findKey? b = some n) : g.AnsweredAlike a b := by
  have hsame : g.canonical a = g.canonical b := by
    rw [canonical, canonical, ha, hb, Option.map_some, Option.getD_some, Option.getD_some]
  constructor
  · rw [references?, references?, hsame]
  · rw [dependsOn, dependsOn, hsame]
  · intro kind
    rw [dependents, dependents, hsame]
  · rw [allDependencies, allDependencies, hsame]
  · rw [allDependents, allDependents, hsame]
  · rw [impact, impact, hsame]
  · intro depth
    rw [tree?, tree?, ha, hb]

/-- What a spelling of a key leads to, if no node has it as its key. -/
theorem findKey?_of_fold_eq {key : Key} {n : Node} (h : fold key = fold n.key) :
    (reported c index rules bs).findKey? key =
      (firstWithKey? c key).or ((firstNamed? c n.object.spelled.normalized).bind fun m =>
        firstWithKey? c m.key) := by
  obtain ⟨s, hs, hsame⟩ := ObjectRef.exists_ofKey?_of_fold_eq h
  have hnode : (reported c index rules bs).nodes.get? key = firstWithKey? c key :=
    get?_nodes_build c index key
  have hfind : (reported c index rules bs).find? s.table s.name =
      (firstNamed? c s.normalized).bind fun m => firstWithKey? c m.key :=
    find?_build c index s.table s.name
  rw [findKey?, hnode, hs, Option.bind_some, hfind, hsame]

theorem findKey?_of_node {n : Node} (hn : firstWithKey? c n.key = some n) :
    (reported c index rules bs).findKey? n.key = some n := by
  rw [findKey?_of_fold_eq rfl, hn, Option.some_or]

theorem keysReadable_of_keysInAnyCase (h : (reported c index rules bs).KeysInAnyCase) :
    KeysReadable c := by
  intro n hn
  by_cases honly : ∀ key, fold key = fold n.key → key = n.key
  · exact .inl honly
  · right
    simp only [not_forall] at honly
    obtain ⟨key, hfold, hne⟩ := honly
    have hfound := h.found n ((get?_nodes_build c index n.key).trans hn) key hfold
    rw [findKey?_of_fold_eq hfold, Option.or_eq_some_iff] at hfound
    rcases hfound with hnode | ⟨-, hspelled⟩
    · exact absurd (mem_ofCatalog_of_firstWithKey? hnode).2.symm hne
    · obtain ⟨m, hm, hkey⟩ := Option.bind_eq_some_iff.mp hspelled
      exact ⟨m, hm, (mem_ofCatalog_of_firstWithKey? hkey).2.symm⟩

theorem found_of_keysReadable (h : KeysReadable c) {n : Node}
    (hn : firstWithKey? c n.key = some n) {key : Key} (hfold : fold key = fold n.key) :
    (reported c index rules bs).findKey? key = some n := by
  by_cases hkey : key = n.key
  · rw [hkey]
    exact findKey?_of_node hn
  · rcases h n hn with honly | ⟨m, hm, hmkey⟩
    · exact absurd (honly key hfold) hkey
    · rw [findKey?_of_fold_eq hfold, hm, Option.bind_some, hmkey, hn]
      cases hother : firstWithKey? c key with
      | none => rfl
      | some n' =>
          -- a second node with this lowercase would spell the same, and so be the same
          obtain ⟨hmem, rfl⟩ := mem_ofCatalog_of_firstWithKey? hother
          rcases h n' hother with honly | ⟨m', hm', hmkey'⟩
          · exact absurd (honly n.key hfold.symm).symm hkey
          · rw [ObjectRef.normalized_spelled_of_fold_eq hfold, hm, Option.some.injEq] at hm'
            rw [← hm', hmkey] at hmkey'
            exact absurd hmkey'.symm hkey

theorem keysInAnyCase_of_keysReadable (h : KeysReadable c) :
    (reported c index rules bs).KeysInAnyCase := by
  have hnode : ∀ n, (reported c index rules bs).nodes.get? n.key = some n →
      firstWithKey? c n.key = some n :=
    fun n hn => (get?_nodes_build c index n.key).symm.trans hn
  refine ⟨fun n hn key hfold => found_of_keysReadable h (hnode n hn) hfold, ?_⟩
  intro n hn key hfold
  exact answeredAlike_of_findKey? (found_of_keysReadable h (hnode n hn) hfold)
    (findKey?_of_node (hnode n hn))

/-- Whatever the catalog, the index, the rules and the bindings of a graph, its nodes are found
in any case exactly when their keys can be read back. -/
theorem keysInAnyCase_iff_keysReadable (c : Catalog) (index : Index) (rules : UsageRules)
    (bs : List Binding) : (reported c index rules bs).KeysInAnyCase ↔ KeysReadable c :=
  ⟨keysReadable_of_keysInAnyCase, keysInAnyCase_of_keysReadable⟩

/-- The objects of a catalog differ in more than case. -/
def NamesApart (c : Catalog) : Prop :=
  ((Node.ofCatalog c).map fun n => (fold n.object.table, fold n.object.name)).Nodup

instance (c : Catalog) : Decidable (NamesApart c) :=
  inferInstanceAs (Decidable (List.Nodup _))

/-- In one table with a bracket in its name, a measure is found under its key, and under no
other spelling of it. -/
theorem not_keysInAnyCase_bracketInTable :
    let c := Catalog.ofDocuments
      [(Definition.parse "table 'T[X'\n\tmeasure Y = 1\n" "model").root]
    NamesApart c ∧ ((ofCatalog c).findKey? "T[X[Y]").isSome = true
      ∧ (ofCatalog c).findKey? "t[x[y]" = none ∧ ¬ (ofCatalog c).KeysInAnyCase := by
  intro c
  have hnone : (ofCatalog c).findKey? "t[x[y]" = none := by decide +kernel
  refine ⟨by decide +kernel, by decide +kernel, hnone, fun h => ?_⟩
  have hsome : ((ofCatalog c).nodes.get? "T[X[Y]").isSome = true := by decide +kernel
  obtain ⟨n, hn⟩ := Option.isSome_iff_exists.mp hsome
  have hkey : n.key = "T[X[Y]" := keyed_build c _ _ n hn
  rw [← hkey] at hn
  have hfound := h.found n hn "t[x[y]" (by rw [hkey]; decide +kernel)
  rw [hnone] at hfound
  cases hfound

/-- In a catalog whose objects differ in more than case, nodes are found in any case if their
tables have no bracket and no bar in their names. -/
theorem keysInAnyCase_of_tables (hapart : NamesApart c)
    (htables : ∀ n ∈ Node.ofCatalog c,
      '[' ∉ n.object.table.toList ∧ '|' ∉ n.object.table.toList) :
    (reported c index rules bs).KeysInAnyCase := by
  refine keysInAnyCase_of_keysReadable fun n hn => ?_
  obtain ⟨hmem, -⟩ := mem_ofCatalog_of_firstWithKey? hn
  obtain ⟨m, hm⟩ := exists_firstNamed? hmem
  obtain ⟨hmem', hsame⟩ := mem_ofCatalog_of_firstNamed? hm
  obtain ⟨htable, hname⟩ := ObjectRef.fold_eq_of_notMem_table (htables m hmem').2
    (htables n hmem).2 hsame
  have hself : m = n := List.inj_on_of_nodup_map hapart hmem' hmem (Prod.ext htable hname)
  refine .inr ⟨m, ?_, by rw [hself]⟩
  rw [ObjectRef.spelled_eq_self (htables n hmem).1, hm]

end Graph

end Tabular.Dependency
