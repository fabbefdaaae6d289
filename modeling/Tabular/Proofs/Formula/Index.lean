import Tabular.Formula.Index
import Tabular.Proofs.Ordered.SortedMap

/-!
# What an index knows

An index is filled row by row. Whatever rows it has been given, it holds what they say
and nothing else, up to case: an object stands under its own lowercase key, which is the
key of a row; a table that owns a name has a row with that name; and each row that has a
table and a name can be found by both.
-/

namespace Tabular.Formula

open Ordered Text

/-- A collection of owned objects says what some rows say. -/
structure Owned.Holds (o : Owned) (rows : List ObjectRef) : Prop where
  normalized : ∀ key r, o.refs.get? key = some r → r.normalized = key
  declared : ∀ key r, o.refs.get? key = some r → ∃ row ∈ rows, row.normalized = key
  owner : ∀ name tables, o.owners.get? name = some tables → ∀ table ∈ tables,
    ∃ row ∈ rows, fold row.table = fold table ∧ fold row.name = name
  found : ∀ row ∈ rows, row.table ≠ "" → row.name ≠ "" →
    (o.refs.get? row.normalized).isSome ∧ (o.owners.get? (fold row.name)).isSome

/-- An index says what some rows of measures and columns say, in one spelling of each
table. -/
structure Index.Holds (i : Index) (measures columns : List ObjectRef) : Prop where
  spelled : ∀ key table, i.tables.get? key = some table → fold table = key
  measures : i.measures.Holds measures
  columns : i.columns.Holds columns

namespace Owned

variable {o : Owned} {rows : List ObjectRef}

theorem holds_empty : Owned.Holds {} [] where
  normalized _ _ h := by cases h
  declared _ _ h := by cases h
  owner _ _ h := by cases h
  found _ h := by cases h

/-- A row without a table or a name may be left out. -/
theorem Holds.skip (h : o.Holds rows) {row : ObjectRef} (hrow : row.table = "" ∨ row.name = "") :
    o.Holds (rows ++ [row]) where
  normalized := h.normalized
  declared key r hr := by
    obtain ⟨other, hmem, hkey⟩ := h.declared key r hr
    exact ⟨other, List.mem_append_left _ hmem, hkey⟩
  owner name tables hs table ht := by
    obtain ⟨other, hmem, hother⟩ := h.owner name tables hs table ht
    exact ⟨other, List.mem_append_left _ hmem, hother⟩
  found other hmem htable hname := by
    rcases List.mem_append.mp hmem with hmem | hmem
    · exact h.found other hmem htable hname
    · rw [List.mem_singleton] at hmem
      subst hmem
      rcases hrow with hrow | hrow
      · exact absurd hrow htable
      · exact absurd hrow hname

theorem get?_refs_add (o : Owned) (owner name key : String) :
    (o.add owner name).refs.get? key =
      if key = normalizedKey owner name ∧ (o.refs.get? key).isNone
      then some ⟨owner, name⟩ else o.refs.get? key :=
  SortedMap.get?_insertNew_ite o.refs _ key _

theorem get?_owners_add (o : Owned) (owner name key : String) :
    (o.add owner name).owners.get? key =
      if key = fold name
      then some (((o.owners.get? (fold name)).getD ∅).insert owner) else o.owners.get? key :=
  SortedMap.get?_insert_ite o.owners _ key _

theorem isSome_refs_add {o : Owned} {key : String} (h : (o.refs.get? key).isSome)
    (owner name : String) : ((o.add owner name).refs.get? key).isSome := by
  rw [get?_refs_add]
  split
  · rfl
  · exact h

theorem isSome_owners_add {o : Owned} {key : String} (h : (o.owners.get? key).isSome)
    (owner name : String) : ((o.add owner name).owners.get? key).isSome := by
  rw [get?_owners_add]
  split
  · rfl
  · exact h

section Add

variable {row : ObjectRef} {owner : String}

theorem normalizedKey_of_fold_eq (howner : fold owner = fold row.table) :
    normalizedKey owner row.name = row.normalized := by
  rw [normalizedKey, howner]
  rfl

theorem Holds.normalized_add (h : o.Holds rows) {key : String} {r : ObjectRef}
    (hr : (o.add owner row.name).refs.get? key = some r) : r.normalized = key := by
  rw [get?_refs_add] at hr
  split at hr
  · next hnew =>
      rw [← Option.some.inj hr, hnew.1]
      rfl
  · exact h.normalized key r hr

theorem Holds.declared_add (h : o.Holds rows) (howner : fold owner = fold row.table)
    {key : String} {r : ObjectRef} (hr : (o.add owner row.name).refs.get? key = some r) :
    ∃ other ∈ rows ++ [row], other.normalized = key := by
  rw [get?_refs_add, normalizedKey_of_fold_eq howner] at hr
  split at hr
  · next hnew => exact ⟨row, List.mem_append_right _ List.mem_cons_self, hnew.1.symm⟩
  · obtain ⟨other, hmem, hother⟩ := h.declared key r hr
    exact ⟨other, List.mem_append_left _ hmem, hother⟩

theorem Holds.owner_add (h : o.Holds rows) (howner : fold owner = fold row.table)
    {name : String} {tables : SortedSet String}
    (htables : (o.add owner row.name).owners.get? name = some tables) {table : String}
    (htable : table ∈ tables) :
    ∃ other ∈ rows ++ [row], fold other.table = fold table ∧ fold other.name = name := by
  have hold : ∀ old, o.owners.get? name = some old → table ∈ old →
      ∃ other ∈ rows ++ [row], fold other.table = fold table ∧ fold other.name = name := by
    intro old hget hmem
    obtain ⟨other, hother, hsame⟩ := h.owner name old hget table hmem
    exact ⟨other, List.mem_append_left _ hother, hsame⟩
  rw [get?_owners_add] at htables
  split at htables
  · next hname =>
      rw [← hname, Option.some.injEq] at htables
      rw [← htables, SortedSet.mem_insert] at htable
      rcases htable with rfl | htable
      · exact ⟨row, List.mem_append_right _ List.mem_cons_self, howner.symm, hname.symm⟩
      · cases hget : o.owners.get? name with
        | none =>
            rw [hget] at htable
            exact absurd htable SortedSet.not_mem_empty
        | some old =>
            rw [hget] at htable
            exact hold old hget htable
  · exact hold tables htables htable

theorem isSome_refs_add_self (howner : fold owner = fold row.table) :
    ((o.add owner row.name).refs.get? row.normalized).isSome := by
  rw [get?_refs_add, normalizedKey_of_fold_eq howner]
  cases o.refs.get? row.normalized with
  | none => simp
  | some r => simp

theorem isSome_owners_add_self :
    ((o.add owner row.name).owners.get? (fold row.name)).isSome := by
  rw [get?_owners_add, if_pos rfl]
  rfl

/-- A row is added under a spelling of its table. -/
theorem Holds.add (h : o.Holds rows) (howner : fold owner = fold row.table) :
    (o.add owner row.name).Holds (rows ++ [row]) where
  normalized _ _ hr := h.normalized_add hr
  declared _ _ hr := h.declared_add howner hr
  owner _ _ htables _ htable := h.owner_add howner htables htable
  found other hmem htable hname := by
    rcases List.mem_append.mp hmem with hmem | hmem
    · obtain ⟨href, howners⟩ := h.found other hmem htable hname
      exact ⟨isSome_refs_add href owner row.name, isSome_owners_add howners owner row.name⟩
    · rw [List.mem_singleton.mp hmem]
      exact ⟨isSome_refs_add_self howner, isSome_owners_add_self⟩

end Add

end Owned

namespace Index

variable {i : Index} {ms cs : List ObjectRef}

theorem holds_empty : Index.Holds {} [] [] where
  spelled _ _ h := by cases h
  measures := Owned.holds_empty
  columns := Owned.holds_empty

/-- The spelling of a table differs from the table in case only. -/
theorem Holds.fold_spelling (h : i.Holds ms cs) (table : String) :
    fold (i.spelling table) = fold table := by
  rw [spelling, table?]
  cases hget : i.tables.get? (fold table) with
  | none => rfl
  | some spelled => exact h.spelled _ _ hget

theorem Holds.addTable (h : i.Holds ms cs) (name : String) : (i.addTable name).Holds ms cs := by
  rw [Index.addTable]
  split
  · exact h
  · refine ⟨fun key table htable => ?_, h.measures, h.columns⟩
    rw [SortedMap.get?_insertNew_ite] at htable
    split at htable
    · next hnew => rw [← Option.some.inj htable, hnew.1]
    · exact h.spelled key table htable

theorem Holds.addMeasure (h : i.Holds ms cs) (row : ObjectRef) :
    (i.addMeasure row.table row.name).Holds (ms ++ [row]) cs := by
  rw [Index.addMeasure]
  split
  · next hempty =>
      rw [Bool.or_eq_true, String.isEmpty_iff, String.isEmpty_iff] at hempty
      exact ⟨h.spelled, h.measures.skip hempty, h.columns⟩
  · have htable := h.addTable row.table
    exact ⟨htable.spelled, htable.measures.add (htable.fold_spelling row.table),
      htable.columns⟩

theorem Holds.addColumn (h : i.Holds ms cs) (row : ObjectRef) :
    (i.addColumn row.table row.name).Holds ms (cs ++ [row]) := by
  rw [Index.addColumn]
  split
  · next hempty =>
      rw [Bool.or_eq_true, String.isEmpty_iff, String.isEmpty_iff] at hempty
      exact ⟨h.spelled, h.measures, h.columns.skip hempty⟩
  · have htable := h.addTable row.table
    exact ⟨htable.spelled, htable.measures,
      htable.columns.add (htable.fold_spelling row.table)⟩

theorem Holds.foldl_addMeasure (h : i.Holds ms cs) (rows : List ObjectRef) :
    (rows.foldl (fun i r => i.addMeasure r.table r.name) i).Holds (ms ++ rows) cs := by
  induction rows generalizing i ms with
  | nil => rwa [List.append_nil]
  | cons row rest ih =>
      have hrest := ih (h.addMeasure row)
      rwa [List.append_assoc] at hrest

theorem Holds.foldl_addColumn (h : i.Holds ms cs) (rows : List ObjectRef) :
    (rows.foldl (fun i r => i.addColumn r.table r.name) i).Holds ms (cs ++ rows) := by
  induction rows generalizing i cs with
  | nil => rwa [List.append_nil]
  | cons row rest ih =>
      have hrest := ih (h.addColumn row)
      rwa [List.append_assoc] at hrest

theorem Holds.foldl_addTable (h : i.Holds ms cs) (tables : List Table) :
    (tables.foldl (fun i t => i.addTable t.name) i).Holds ms cs := by
  induction tables generalizing i with
  | nil => exact h
  | cons t rest ih => exact ih (h.addTable t.name)

/-- The index of a catalog says what its measures and columns say. -/
theorem holds_ofCatalog (c : Catalog) :
    (Index.ofCatalog c).Holds (c.measures.map (·.ref)) (c.columns.map (·.ref)) :=
  ((holds_empty.foldl_addMeasure _).foldl_addColumn _).foldl_addTable _

end Index

end Tabular.Formula
