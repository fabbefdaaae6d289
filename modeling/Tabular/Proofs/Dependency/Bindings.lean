import Tabular.Dependency.Tree
import Tabular.Dependency.Impact
import Tabular.Proofs.Dependency.Unused

/-!
# What further bindings change

Bindings of visuals are put behind those a graph has, and nothing else of it is touched.
Questions about the model therefore have the answers they had. Of the lists of unused
objects further bindings only take elements away, each list in its own way: a measure goes
when a counted binding of a measure has its lowercase key, a column likewise, and a table
when a counted binding of a column names it. Since every binding takes away what it takes
away whatever the others do, their order makes no difference.
-/

namespace Tabular.Dependency

open Ordered Formula Text

namespace Graph

/-- Whether two graphs answer questions about the model alike. -/
structure SameAnswers (g g' : Graph) : Prop where
  find? : ∀ table name, g'.find? table name = g.find? table name
  dependsOn : ∀ key, g'.dependsOn key = g.dependsOn key
  dependents : ∀ kind key, g'.dependents kind key = g.dependents kind key
  allDependencies : ∀ key, g'.allDependencies key = g.allDependencies key
  allDependents : ∀ key, g'.allDependents key = g.allDependents key
  cycles : g'.cycles = g.cycles
  columnUsage : ∀ table column, g'.columnUsage table column = g.columnUsage table column
  measureTree? : ∀ table name depth,
    g'.measureTree? table name depth = g.measureTree? table name depth
  tree? : ∀ key depth, g'.tree? key depth = g.tree? key depth

/-- Whether the unused objects of one graph are those of another without what counted
bindings are of. -/
structure WithoutBound (rules : UsageRules) (bs : List Binding) (g g' : Graph) : Prop where
  measures : g'.unusedMeasures = g.unusedMeasures.filter fun o =>
    o.normalized ∉ (countedObjects rules bs .measure).map (·.normalized)
  columns : g'.unusedColumns = g.unusedColumns.filter fun o =>
    o.normalized ∉ (countedObjects rules bs .column).map (·.normalized)
  tables : g'.unusedTables = g.unusedTables.filter fun t =>
    fold t ∉ (countedObjects rules bs .column).map fun o => fold o.table

/-! ## Questions about the model -/

/-- A tree is made of what objects depend on, level by level. -/
theorem unfold_withBindings (g : Graph) (bs : List Binding) (depth : Nat) :
    (g.withBindings bs).unfold depth = g.unfold depth := by
  induction depth with
  | zero =>
      funext way key kind
      rw [unfold, unfold]
      rfl
  | succ depth ih =>
      funext way key kind
      rw [unfold, unfold]
      simp only [ih]
      rfl

theorem sameAnswers_withBindings (g : Graph) (bs : List Binding) :
    SameAnswers g (g.withBindings bs) where
  find? _ _ := rfl
  dependsOn _ := rfl
  dependents _ _ := rfl
  allDependencies _ := rfl
  allDependents _ := rfl
  cycles := rfl
  columnUsage _ _ := rfl
  measureTree? table name depth := by
    rw [Graph.measureTree?, Graph.measureTree?]
    simp only [unfold_withBindings]
    rfl
  tree? key depth := by
    rw [Graph.tree?, Graph.tree?]
    simp only [unfold_withBindings]
    rfl

/-! ## Unused objects -/

theorem usedMeasures_withBindings (g : Graph) (bs : List Binding) :
    (g.withBindings bs).usedMeasures =
      g.usedMeasures ++ countedObjects g.rules bs .measure := by
  rw [usedMeasures, usedMeasures, boundObjects_withBindings, List.append_assoc]
  rfl

theorem usedColumns_withBindings (g : Graph) (bs : List Binding) :
    (g.withBindings bs).usedColumns = g.usedColumns ++ countedObjects g.rules bs .column := by
  rw [usedColumns, usedColumns, boundObjects_withBindings, List.append_assoc, List.append_assoc,
    List.append_assoc]
  rfl

theorem usedTables_withBindings (g : Graph) (bs : List Binding) :
    (g.withBindings bs).usedTables =
      g.usedTables ++ (countedObjects g.rules bs .column).map (·.table) := by
  rw [usedTables, usedTables, usedColumns_withBindings, List.map_append, List.append_assoc]
  rfl

theorem decide_notMem_ofList_append {xs ys : List String} {s : String} :
    decide (s ∉ SortedSet.ofList (xs ++ ys)) =
      (decide (s ∉ ys) && decide (s ∉ SortedSet.ofList xs)) := by
  rw [← Bool.decide_and, decide_eq_decide, SortedSet.mem_ofList, SortedSet.mem_ofList,
    List.mem_append, not_or, and_comm]

theorem withoutBound_withBindings (g : Graph) (bs : List Binding) :
    WithoutBound g.rules bs g (g.withBindings bs) := by
  constructor
  · rw [unusedMeasures, unusedMeasures, usedMeasures_withBindings, List.filter_map,
      List.filter_filter, List.map_append]
    refine congrArg _ (List.filter_congr fun n _ => ?_)
    exact decide_notMem_ofList_append
  · rw [unusedColumns, unusedColumns, usedColumns_withBindings, List.filter_map,
      List.filter_filter, List.map_append]
    refine congrArg _ (List.filter_congr fun n _ => ?_)
    rw [decide_notMem_ofList_append, Bool.and_left_comm]
    rfl
  · rw [unusedTables, unusedTables, usedTables_withBindings, List.filter_filter, List.map_append,
      List.map_map]
    refine List.filter_congr fun t _ => ?_
    exact decide_notMem_ofList_append

/-- Bindings can be added in any order. -/
theorem unusedObjects_withBindings_comm (g : Graph) (bs bs' : List Binding) :
    ((g.withBindings bs').withBindings bs).unusedObjects =
      ((g.withBindings bs).withBindings bs').unusedObjects := by
  have hfirst := withoutBound_withBindings g bs
  have hthen := withoutBound_withBindings (g.withBindings bs) bs'
  have hfirst' := withoutBound_withBindings g bs'
  have hthen' := withoutBound_withBindings (g.withBindings bs') bs
  have hmeasures : ((g.withBindings bs').withBindings bs).unusedMeasures =
      ((g.withBindings bs).withBindings bs').unusedMeasures := by
    rw [hthen'.measures, hfirst'.measures, hthen.measures, hfirst.measures]
    exact List.filter_comm _ _ _
  have hcolumns : ((g.withBindings bs').withBindings bs).unusedColumns =
      ((g.withBindings bs).withBindings bs').unusedColumns := by
    rw [hthen'.columns, hfirst'.columns, hthen.columns, hfirst.columns]
    exact List.filter_comm _ _ _
  have htables : ((g.withBindings bs').withBindings bs).unusedTables =
      ((g.withBindings bs).withBindings bs').unusedTables := by
    rw [hthen'.tables, hfirst'.tables, hthen.tables, hfirst.tables]
    exact List.filter_comm _ _ _
  rw [unusedObjects, hmeasures, hcolumns, htables]
  rfl

/-- Whatever the graph, the rules and the bindings it has, further bindings leave the
answers about the model as they are, take from the lists of unused objects what the
counted ones among them are of, and could as well have come first. -/
theorem additive_withBindings (g : Graph) (rules : UsageRules) (bs bs' : List Binding) :
    let before := (g.withRules rules).withBindings bs
    let after := before.withBindings bs'
    SameAnswers before after ∧ WithoutBound rules bs' before after
      ∧ (((g.withRules rules).withBindings bs').withBindings bs).unusedObjects =
        after.unusedObjects := by
  intro before after
  exact ⟨sameAnswers_withBindings before bs', withoutBound_withBindings before bs',
    unusedObjects_withBindings_comm (g.withRules rules) bs bs'⟩

end Graph

end Tabular.Dependency
