import Mathlib.Data.Finset.Card
import Tabular.Proofs.Dependency.Unused

/-!
# When the lists of unused objects repeat themselves

The lists are made from the keys of the catalog, in its order, and each key is answered
by the first object that has it. A catalog may declare a key again: then the same object
answers twice, is listed twice and counted twice. And a measure may have the key of a
column: then the measure answers for the column, and the marks of the column are not
looked at.

Neither happens in a catalog with keys that tell its objects apart. In any other
catalog, the lists are right exactly when no object that answers for a clash is shown
at all, because it is used or left out.
-/

namespace Tabular.Dependency

open Ordered Formula Text

theorem nodup_filter_iff {α : Type} [DecidableEq α] {p : α → Bool} {xs : List α} :
    (xs.filter p).Nodup ↔ ∀ x ∈ xs, 1 < xs.count x → p x = false := by
  rw [List.nodup_iff_count_le_one]
  constructor
  · intro h x _ hcount
    by_contra hp
    rw [Bool.not_eq_false] at hp
    have hx := h x
    rw [List.count_filter hp] at hx
    omega
  · intro h x
    by_cases hx : x ∈ xs.filter p
    · obtain ⟨hmem, hp⟩ := List.mem_filter.mp hx
      rw [List.count_filter hp]
      by_contra hcount
      have hfalse := h x hmem (by omega)
      exact absurd hp (by rw [hfalse]; exact Bool.false_ne_true)
    · rw [List.count_eq_zero_of_not_mem hx]
      omega

theorem length_eq_card_iff_nodup {α : Type} [DecidableEq α] {xs : List α} :
    xs.length = xs.toFinset.card ↔ xs.Nodup := by
  rw [eq_comm]
  exact Multiset.toFinset_card_eq_card_iff_nodup

/-- The objects that answer for keys, as far as a condition lets them be shown. -/
def shown (c : Catalog) (shows : Node → Bool) (keys : List Key) : List ObjectRef :=
  ((keys.filterMap (firstWithKey? c)).filter shows).map (·.object)

variable {c : Catalog} {index : Index} {shows : Node → Bool} {keys : List Key}

theorem mem_shown {r : ObjectRef} :
    r ∈ shown c shows keys ↔
      r.key ∈ keys ∧ ∃ n, firstWithKey? c r.key = some n ∧ n.object = r ∧ shows n = true := by
  rw [shown, List.mem_map]
  constructor
  · rintro ⟨n, hn, rfl⟩
    obtain ⟨hmem, hshows⟩ := List.mem_filter.mp hn
    obtain ⟨key, hkey, hfirst⟩ := List.mem_filterMap.mp hmem
    have hk : n.object.key = key := (mem_ofCatalog_of_firstWithKey? hfirst).2
    rw [hk]
    exact ⟨hkey, n, hfirst, rfl, hshows⟩
  · rintro ⟨hkey, n, hfirst, hobject, hshows⟩
    exact ⟨n, List.mem_filter.mpr ⟨List.mem_filterMap.mpr ⟨_, hkey, hfirst⟩, hshows⟩, hobject⟩

/-- The keys of the objects shown are the keys asked for, as far as they are shown. -/
theorem map_key_shown (c : Catalog) (shows : Node → Bool) (keys : List Key) :
    (shown c shows keys).map (·.key) =
      keys.filter fun key => (firstWithKey? c key).any shows := by
  rw [shown]
  induction keys with
  | nil => rfl
  | cons key rest ih =>
      cases hfirst : firstWithKey? c key with
      | none =>
          rw [List.filterMap_cons_none hfirst, ih, List.filter_cons_of_neg]
          rw [hfirst]
          exact Bool.false_ne_true
      | some n =>
          have hkey : n.object.key = key := (mem_ofCatalog_of_firstWithKey? hfirst).2
          rw [List.filterMap_cons_some hfirst]
          cases hshows : shows n with
          | false =>
              rw [List.filter_cons_of_neg (by rw [hshows]; exact Bool.false_ne_true), ih,
                List.filter_cons_of_neg]
              rw [hfirst, Option.any_some, hshows]
              exact Bool.false_ne_true
          | true =>
              rw [List.filter_cons_of_pos hshows, List.map_cons, List.map_cons, ih, hkey,
                List.filter_cons_of_pos]
              rw [hfirst, Option.any_some, hshows]

/-- Objects are shown once when those whose keys come up again are not shown. -/
theorem nodup_shown_iff :
    (shown c shows keys).Nodup ↔ ∀ key ∈ keys, 1 < keys.count key →
      ∀ n, firstWithKey? c key = some n → shows n = false := by
  have hkeys : (shown c shows keys).Nodup ↔ ((shown c shows keys).map (·.key)).Nodup := by
    constructor
    · refine fun h => h.map_on fun r hr r' hr' hkey => ?_
      obtain ⟨-, n, hn, rfl, -⟩ := mem_shown.mp hr
      obtain ⟨-, n', hn', rfl, -⟩ := mem_shown.mp hr'
      rw [hkey, hn'] at hn
      rw [Option.some.inj hn]
    · exact List.Nodup.of_map _
  rw [hkeys, map_key_shown, nodup_filter_iff]
  refine forall₂_congr fun key _ => imp_congr_right fun _ => ?_
  rw [Option.any_eq_false]

/-- Whether what answers for a measure stands in a table, or a used column does. -/
def IsUsedTable (c : Catalog) (index : Index) (rules : UsageRules) (bs : List Binding)
    (name : String) : Prop :=
  (∃ m ∈ c.measures, ∃ n, firstWithKey? c m.key = some n ∧ fold n.object.table = fold name)
    ∨ ∃ r, Uses c index rules bs .column r ∧ fold r.table = fold name

namespace Graph

/-- Whether a node would be listed as an unused measure. -/
def showsMeasure (g : Graph) (n : Node) : Bool :=
  n.object.normalized ∉ SortedSet.ofList (g.usedMeasures.map (·.normalized))

/-- Whether a node would be listed as an unused column. -/
def showsColumn (g : Graph) (n : Node) : Bool :=
  !passesOver g.rules.columns n
    && decide (n.object.normalized ∉ SortedSet.ofList (g.usedColumns.map (·.normalized)))

/-- Whether a name would be listed as an unused table. -/
def showsTable (g : Graph) (name : String) : Bool :=
  fold name ∉ SortedSet.ofList (g.usedTables.map fold)

/-- The unused objects are in order: none is listed or counted twice, not even as a
column when it is a measure only, and no column that the rules leave out is listed. -/
structure ListsOnce (c : Catalog) (g : Graph) : Prop where
  measures : g.unusedObjects.measures.Nodup
  columns : g.unusedObjects.columns.Nodup
  tables : g.unusedObjects.tables.Nodup
  totalMeasures : g.unusedObjects.totalMeasures = g.unusedMeasures.toFinset.card
  totalColumns : g.unusedObjects.totalColumns = g.unusedColumns.toFinset.card
  totalTables : g.unusedObjects.totalTables = g.unusedTables.toFinset.card
  apart : ∀ r ∈ g.unusedObjects.measures, r ∈ g.unusedObjects.columns →
    ∃ col ∈ c.columns, col.ref = r
  leftOut : ∀ col ∈ c.columns, leavesOut g.rules.columns col = true →
    col.ref ∉ g.unusedObjects.columns

/-- No clash is shown. What answers for a key or a table that is declared again is used,
or left out, and so is what answers with its own name for a column that the rules leave
out; what answers for a measure and a column, and is no column, is not shown as both. -/
structure ClashesHidden (c : Catalog) (index : Index) (rules : UsageRules)
    (bs : List Binding) : Prop where
  measures : ∀ key ∈ c.measures.map (·.key), 1 < (c.measures.map (·.key)).count key →
    ∀ n, firstWithKey? c key = some n → IsUsed c index rules bs .measure n.object
  columns : ∀ key ∈ c.columns.map (·.key), 1 < (c.columns.map (·.key)).count key →
    ∀ n, firstWithKey? c key = some n →
      passesOver rules.columns n = true ∨ IsUsed c index rules bs .column n.object
  tables : ∀ name ∈ c.tables.map (·.name), 1 < (c.tables.map (·.name)).count name →
    IsUsedTable c index rules bs name
  apart : ∀ m ∈ c.measures, ∀ col ∈ c.columns, m.key = col.key →
    ∀ n, firstWithKey? c col.key = some n → (∀ other ∈ c.columns, other.ref ≠ n.object) →
      IsUsed c index rules bs .measure n.object ∨ passesOver rules.columns n = true
        ∨ IsUsed c index rules bs .column n.object
  leftOut : ∀ col ∈ c.columns, leavesOut rules.columns col = true →
    ∀ n, firstWithKey? c col.key = some n → n.object = col.ref →
      passesOver rules.columns n = true ∨ IsUsed c index rules bs .column n.object

variable {rules : UsageRules} {bs : List Binding}

theorem mem_ofList_normalized_iff {used : List ObjectRef} {o : ObjectRef} :
    o.normalized ∈ SortedSet.ofList (used.map (·.normalized)) ↔
      ∃ r ∈ used, r.normalized = o.normalized := by
  rw [SortedSet.mem_ofList, List.mem_map]

theorem showsMeasure_eq_false_iff {n : Node} :
    (reported c index rules bs).showsMeasure n = false ↔
      IsUsed c index rules bs .measure n.object := by
  rw [showsMeasure, decide_eq_false_iff_not, not_not, mem_ofList_normalized_iff]
  exact exists_congr fun r => and_congr_left fun _ => mem_usedMeasures_iff

theorem showsColumn_eq_false_iff {n : Node} :
    (reported c index rules bs).showsColumn n = false ↔
      passesOver rules.columns n = true ∨ IsUsed c index rules bs .column n.object := by
  rw [showsColumn, Bool.and_eq_false_iff, Bool.not_eq_false', decide_eq_false_iff_not,
    not_not, mem_ofList_normalized_iff]
  refine or_congr Iff.rfl ?_
  exact exists_congr fun r => and_congr_left fun _ => mem_usedColumns_iff

theorem showsTable_eq_false_iff {name : String} :
    (reported c index rules bs).showsTable name = false ↔
      IsUsedTable c index rules bs name := by
  rw [showsTable, decide_eq_false_iff_not, not_not, SortedSet.mem_ofList, usedTables,
    List.map_append, List.mem_append, List.map_map, List.map_map, List.mem_map, List.mem_map,
    nodesOf_reported]
  refine or_congr ?_ ?_
  · constructor
    · rintro ⟨n, hn, hname⟩
      obtain ⟨key, hkey, hfirst⟩ := List.mem_filterMap.mp hn
      obtain ⟨m, hm, rfl⟩ := List.mem_map.mp hkey
      exact ⟨m, hm, n, hfirst, hname⟩
    · rintro ⟨m, hm, n, hfirst, hname⟩
      exact ⟨n, List.mem_filterMap.mpr ⟨m.key, List.mem_map_of_mem hm, hfirst⟩, hname⟩
  · exact exists_congr fun r => and_congr_left fun _ => mem_usedColumns_iff

theorem unusedMeasures_eq_shown (c : Catalog) (index : Index) (rules : UsageRules)
    (bs : List Binding) :
    (reported c index rules bs).unusedMeasures =
      shown c (reported c index rules bs).showsMeasure (c.measures.map (·.key)) := by
  rw [unusedMeasures, nodesOf_reported]
  rfl

theorem unusedColumns_eq_shown (c : Catalog) (index : Index) (rules : UsageRules)
    (bs : List Binding) :
    (reported c index rules bs).unusedColumns =
      shown c (reported c index rules bs).showsColumn (c.columns.map (·.key)) := by
  rw [unusedColumns, nodesOf_reported]
  rfl

theorem unusedTables_eq_filter (c : Catalog) (index : Index) (rules : UsageRules)
    (bs : List Binding) :
    (reported c index rules bs).unusedTables =
      (c.tables.map (·.name)).filter (reported c index rules bs).showsTable := rfl

/-- A column that the rules leave out is listed when it is what answers for its key. -/
theorem leftOut_iff :
    (∀ col ∈ c.columns, leavesOut rules.columns col = true →
        col.ref ∉ (reported c index rules bs).unusedColumns) ↔
      ∀ col ∈ c.columns, leavesOut rules.columns col = true →
        ∀ n, firstWithKey? c col.key = some n → n.object = col.ref →
          passesOver rules.columns n = true ∨ IsUsed c index rules bs .column n.object := by
  refine forall₂_congr fun col hcol => imp_congr_right fun _ => ?_
  have hkey : col.ref.key ∈ c.columns.map (·.key) := List.mem_map_of_mem hcol
  rw [unusedColumns_eq_shown, mem_shown]
  constructor
  · intro h n hn hobject
    rw [← showsColumn_eq_false_iff]
    by_contra hshows
    rw [Bool.not_eq_false] at hshows
    exact h ⟨hkey, n, hn, hobject, hshows⟩
  · rintro h ⟨-, n, hn, hobject, hshows⟩
    rw [showsColumn_eq_false_iff.mpr (h n hn hobject)] at hshows
    exact Bool.false_ne_true hshows

/-- What is listed as a measure and as a column answers for a key of both. -/
theorem apart_iff :
    (∀ r ∈ (reported c index rules bs).unusedMeasures,
        r ∈ (reported c index rules bs).unusedColumns → ∃ col ∈ c.columns, col.ref = r) ↔
      ∀ m ∈ c.measures, ∀ col ∈ c.columns, m.key = col.key →
        ∀ n, firstWithKey? c col.key = some n → (∀ other ∈ c.columns, other.ref ≠ n.object) →
          IsUsed c index rules bs .measure n.object ∨ passesOver rules.columns n = true
            ∨ IsUsed c index rules bs .column n.object := by
  rw [unusedMeasures_eq_shown, unusedColumns_eq_shown]
  simp only [← showsMeasure_eq_false_iff, ← showsColumn_eq_false_iff]
  constructor
  · intro h m hm col hcol hsame n hn hother
    have hkey : n.object.key = col.key := (mem_ofCatalog_of_firstWithKey? hn).2
    by_contra hshows
    rw [not_or, Bool.not_eq_false, Bool.not_eq_false] at hshows
    obtain ⟨other, hmem, hsame'⟩ := h n.object
      (mem_shown.mpr ⟨by rw [hkey, ← hsame]; exact List.mem_map_of_mem hm, n,
        by rw [hkey]; exact hn, rfl, hshows.1⟩)
      (mem_shown.mpr ⟨by rw [hkey]; exact List.mem_map_of_mem hcol, n,
        by rw [hkey]; exact hn, rfl, hshows.2⟩)
    exact hother other hmem hsame'
  · intro h r hr hr'
    obtain ⟨hmeasure, n, hn, rfl, hshows⟩ := mem_shown.mp hr
    obtain ⟨hcolumn, n', hn', -, hshows'⟩ := mem_shown.mp hr'
    rw [hn] at hn'
    obtain rfl := Option.some.inj hn'
    obtain ⟨m, hm, hmkey⟩ := List.mem_map.mp hmeasure
    obtain ⟨col, hcol, hkey⟩ := List.mem_map.mp hcolumn
    by_contra hnone
    rcases h m hm col hcol (hmkey.trans hkey.symm) n (by rw [hkey]; exact hn)
      (fun other hmem hsame => hnone ⟨other, hmem, hsame⟩) with hfalse | hfalse
    · rw [hfalse] at hshows
      exact Bool.false_ne_true hshows
    · rw [hfalse] at hshows'
      exact Bool.false_ne_true hshows'

theorem unusedMeasures_nodup_iff :
    (reported c index rules bs).unusedMeasures.Nodup ↔
      ∀ key ∈ c.measures.map (·.key), 1 < (c.measures.map (·.key)).count key →
        ∀ n, firstWithKey? c key = some n → IsUsed c index rules bs .measure n.object := by
  simp only [← showsMeasure_eq_false_iff]
  rw [unusedMeasures_eq_shown]
  exact nodup_shown_iff

theorem unusedColumns_nodup_iff :
    (reported c index rules bs).unusedColumns.Nodup ↔
      ∀ key ∈ c.columns.map (·.key), 1 < (c.columns.map (·.key)).count key →
        ∀ n, firstWithKey? c key = some n →
          passesOver rules.columns n = true ∨ IsUsed c index rules bs .column n.object := by
  simp only [← showsColumn_eq_false_iff]
  rw [unusedColumns_eq_shown]
  exact nodup_shown_iff

theorem unusedTables_nodup_iff :
    (reported c index rules bs).unusedTables.Nodup ↔
      ∀ name ∈ c.tables.map (·.name), 1 < (c.tables.map (·.name)).count name →
        IsUsedTable c index rules bs name := by
  simp only [← showsTable_eq_false_iff]
  rw [unusedTables_eq_filter]
  exact nodup_filter_iff

/-- Limits as large as the lists, which cut nothing. -/
def wideLimits (g : Graph) : OutputLimits where
  unusedMeasures := g.unusedMeasures.length
  unusedColumns := g.unusedColumns.length
  unusedTables := g.unusedTables.length

theorem unusedObjects_measures_wide (c : Catalog) (index : Index) (rules : UsageRules)
    (bs : List Binding) :
    (reported c index { rules with limits := (reported c index rules bs).wideLimits }
      bs).unusedObjects.measures = (reported c index rules bs).unusedMeasures :=
  List.take_length

theorem unusedObjects_columns_wide (c : Catalog) (index : Index) (rules : UsageRules)
    (bs : List Binding) :
    (reported c index { rules with limits := (reported c index rules bs).wideLimits }
      bs).unusedObjects.columns = (reported c index rules bs).unusedColumns :=
  List.take_length

theorem clashesHidden_of_listsOnce
    (h : ∀ limits, ListsOnce c (reported c index { rules with limits } bs)) :
    ClashesHidden c index rules bs := by
  have hall := h (reported c index rules bs).wideLimits
  have hapart := hall.apart
  have hleft := hall.leftOut
  rw [unusedObjects_measures_wide, unusedObjects_columns_wide] at hapart
  rw [unusedObjects_columns_wide] at hleft
  exact
    { measures := unusedMeasures_nodup_iff.mp (length_eq_card_iff_nodup.mp hall.totalMeasures)
      columns := unusedColumns_nodup_iff.mp (length_eq_card_iff_nodup.mp hall.totalColumns)
      tables := unusedTables_nodup_iff.mp (length_eq_card_iff_nodup.mp hall.totalTables)
      apart := apart_iff.mp hapart
      leftOut := leftOut_iff.mp hleft }

theorem listsOnce_of_clashesHidden (h : ClashesHidden c index rules bs) :
    ListsOnce c (reported c index rules bs) := by
  have hm := unusedMeasures_nodup_iff.mpr h.measures
  have hc := unusedColumns_nodup_iff.mpr h.columns
  have ht := unusedTables_nodup_iff.mpr h.tables
  exact
    { measures := hm.sublist (List.take_sublist _ _)
      columns := hc.sublist (List.take_sublist _ _)
      tables := ht.sublist (List.take_sublist _ _)
      totalMeasures := length_eq_card_iff_nodup.mpr hm
      totalColumns := length_eq_card_iff_nodup.mpr hc
      totalTables := length_eq_card_iff_nodup.mpr ht
      apart := fun r hr hr' =>
        apart_iff.mpr h.apart r (List.mem_of_mem_take hr) (List.mem_of_mem_take hr')
      leftOut := fun col hcol hout hmem =>
        leftOut_iff.mpr h.leftOut col hcol hout (List.mem_of_mem_take hmem) }

theorem ClashesHidden.withLimits (h : ClashesHidden c index rules bs)
    (limits : OutputLimits) :
    ClashesHidden c index { rules with limits } bs :=
  ⟨h.measures, h.columns, h.tables, h.apart, h.leftOut⟩

/-- Under all limits the unused objects are in order exactly when no clash is shown. -/
theorem listsOnce_iff_clashesHidden (c : Catalog) (index : Index) (rules : UsageRules)
    (bs : List Binding) :
    (∀ limits, ListsOnce c (reported c index { rules with limits } bs)) ↔
      ClashesHidden c index rules bs := by
  constructor
  · exact clashesHidden_of_listsOnce
  · intro h limits
    exact listsOnce_of_clashesHidden (h.withLimits limits)

/-- A table that is declared twice with one column. -/
def repeatedColumn : Catalog where
  tables :=
    [{ name := "T"
       columns := [{ table := "T", name := "A" }, { table := "T", name := "A" }] }]

/-- A table with a measure and a hidden column of one name. -/
def hiddenNamesake : Catalog where
  tables :=
    [{ name := "T"
       columns := [{ table := "T", name := "X", isHidden := true }]
       measures := [{ table := "T", name := "X", expression := "1" }] }]

theorem not_listsOnce_repeatedColumn :
    ¬ ListsOnce repeatedColumn (ofCatalog repeatedColumn)
      ∧ ¬ ListsOnce hiddenNamesake (ofCatalog hiddenNamesake) := by
  constructor
  · intro h
    have htwice : (ofCatalog repeatedColumn).unusedObjects.columns =
        [⟨"T", "A"⟩, ⟨"T", "A"⟩] := by decide +kernel
    have honce := h.columns
    rw [htwice] at honce
    exact absurd honce (by decide)
  · intro h
    have hshown : (ofCatalog hiddenNamesake).unusedObjects.columns = [⟨"T", "X"⟩] := by
      decide +kernel
    have hnone := h.leftOut { table := "T", name := "X", isHidden := true }
      (by decide) (by decide)
    rw [hshown] at hnone
    exact hnone List.mem_cons_self

theorem not_one_lt_count {α : Type} [DecidableEq α] {xs : List α} (h : xs.Nodup) (x : α) :
    ¬ 1 < xs.count x := Nat.not_lt.mpr (List.nodup_iff_count_le_one.mp h x)

/-- A catalog with keys and table names that tell its objects apart has no clashes. -/
theorem clashesHidden_of_keysApart (h : KeysApart c) (htables : (c.tables.map (·.name)).Nodup) :
    ClashesHidden c index rules bs where
  measures key _ hcount := absurd hcount (not_one_lt_count (List.Nodup.of_append_left h) key)
  columns key _ hcount := absurd hcount (not_one_lt_count (List.Nodup.of_append_right h) key)
  tables name _ hcount := absurd hcount (not_one_lt_count htables name)
  apart m hm col hcol hsame := by
    have hdisjoint := List.disjoint_of_nodup_append h
    exact (hdisjoint (List.mem_map_of_mem hm)
      (hsame ▸ List.mem_map_of_mem hcol)).elim
  leftOut col hcol hout n hn _ := by
    rw [← Node.key_ofColumn, firstWithKey?_of_mem h (ofColumn_mem_ofCatalog hcol)] at hn
    obtain rfl := Option.some.inj hn
    exact Or.inl hout

/-- Where keys and names of tables tell the objects apart, the unused ones are in order. -/
theorem listsOnce_of_keysApart (h : KeysApart c) (htables : (c.tables.map (·.name)).Nodup) :
    ListsOnce c (reported c index rules bs) :=
  listsOnce_of_clashesHidden (clashesHidden_of_keysApart h htables)

end Graph

end Tabular.Dependency
