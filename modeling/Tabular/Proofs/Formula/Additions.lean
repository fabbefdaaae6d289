import Mathlib.Data.List.Basic
import Tabular.Proofs.Formula.Index

/-!
# What has been added to an index

An index is filled by adding tables, measures and columns one after the other, in any
order and any number of times. What it knows in the end can be read off the list of
additions: a table has the spelling of the first addition that names it; a measure or a
column is found under its lowercase key with the name of the first row that has this key
and in the spelling of its table; and the owners of a name are the tables of all rows
with that name, again in the spelling of the index.

Tables are never spelled anew. So adding to an index changes nothing about the rows it
holds already, which is all there is to the step from one addition to the next.
-/

namespace Tabular.Formula

open Ordered Text

/-- Something that is added to an index. -/
inductive Addition where
  | table (name : String)
  | measure (table name : String)
  | column (table name : String)
  deriving DecidableEq, Inhabited, Repr

namespace Addition

/-- A row, if it has a table and a name. -/
def row? (owner name : String) : Option ObjectRef :=
  if owner.isEmpty || name.isEmpty then none else some ⟨owner, name⟩

/-- The row of a measure that an addition gives. -/
def measure? : Addition → Option ObjectRef
  | .measure owner name => row? owner name
  | _ => none

/-- The row of a column that an addition gives. -/
def column? : Addition → Option ObjectRef
  | .column owner name => row? owner name
  | _ => none

/-- The table that an addition names. -/
def table? : Addition → Option String
  | .table name => if name.isEmpty then none else some name
  | .measure owner name | .column owner name => (row? owner name).map ObjectRef.table

end Addition

/-- The index with one more addition. -/
def Index.add (i : Index) : Addition → Index
  | .table name => i.addTable name
  | .measure table name => i.addMeasure table name
  | .column table name => i.addColumn table name

/-- The index that is filled by some additions. -/
def Index.ofAdditions (as : List Addition) : Index := as.foldl Index.add {}

/-- A collection of owned objects is filled by some rows, with tables spelled in a given
way. -/
structure Owned.FilledBy (o : Owned) (spelling : String → String) (rows : List ObjectRef) :
    Prop where
  refs : ∀ key, o.refs.get? key =
    (rows.find? fun r => r.normalized = key).map fun r => ⟨spelling r.table, r.name⟩
  owners : ∀ name tables, o.owners.get? name = some tables →
    ∀ t, t ∈ tables ↔ ∃ r ∈ rows, fold r.name = name ∧ spelling r.table = t
  owned : ∀ name, (o.owners.get? name).isSome ↔ ∃ r ∈ rows, fold r.name = name

/-- An index is filled by some additions. -/
structure Index.FilledBy (i : Index) (as : List Addition) : Prop where
  tables : ∀ key, i.tables.get? key = (as.filterMap (·.table?)).find? fun t => fold t = key
  measures : i.measures.FilledBy i.spelling (as.filterMap (·.measure?))
  columns : i.columns.FilledBy i.spelling (as.filterMap (·.column?))

namespace Owned.FilledBy

variable {o : Owned} {spelling spelling' : String → String} {rows : List ObjectRef}

theorem empty (spelling : String → String) : Owned.FilledBy {} spelling [] where
  refs _ := rfl
  owners _ _ h := by cases h
  owned name := by
    constructor
    · intro h
      cases h
    · rintro ⟨r, hr, -⟩
      exact absurd hr List.not_mem_nil

/-- Only the spelling of the tables of the rows matters. -/
theorem congr (h : o.FilledBy spelling rows)
    (hspelling : ∀ r ∈ rows, spelling' r.table = spelling r.table) :
    o.FilledBy spelling' rows where
  refs key := by
    rw [h.refs key]
    cases hfind : rows.find? fun r => r.normalized = key with
    | none => rfl
    | some r =>
        rw [Option.map_some, Option.map_some, hspelling r (List.mem_of_find?_eq_some hfind)]
  owners name tables htables t := by
    rw [h.owners name tables htables t]
    constructor
    · rintro ⟨r, hr, hname, htable⟩
      exact ⟨r, hr, hname, by rw [hspelling r hr]; exact htable⟩
    · rintro ⟨r, hr, hname, htable⟩
      exact ⟨r, hr, hname, by rw [← hspelling r hr]; exact htable⟩
  owned := h.owned

/-- A row is added under the spelling of its table. -/
theorem add (h : o.FilledBy spelling rows) {row : ObjectRef}
    (hfold : fold (spelling row.table) = fold row.table) :
    (o.add (spelling row.table) row.name).FilledBy spelling (rows ++ [row]) where
  refs key := by
    rw [get?_refs_add, h.refs key, normalizedKey_of_fold_eq hfold, List.find?_append]
    cases hfind : rows.find? fun r => r.normalized = key with
    | some r => simp
    | none =>
        by_cases hkey : row.normalized = key
        · simp [hkey]
        · have hne : key ≠ row.normalized := fun heq => hkey heq.symm
          simp [hkey, hne]
  owners name tables htables t := by
    have hsplit : (∃ r ∈ rows ++ [row], fold r.name = name ∧ spelling r.table = t) ↔
        (∃ r ∈ rows, fold r.name = name ∧ spelling r.table = t)
          ∨ (fold row.name = name ∧ spelling row.table = t) := by
      simp only [List.mem_append, List.mem_singleton, or_and_right, exists_or,
        exists_eq_left]
    rw [hsplit]
    rw [get?_owners_add] at htables
    by_cases hname : name = fold row.name
    · subst hname
      rw [if_pos rfl, Option.some.injEq] at htables
      rw [← htables, SortedSet.mem_insert, or_comm]
      refine or_congr ?_ ?_
      · cases hget : o.owners.get? (fold row.name) with
        | none =>
            rw [Option.getD_none]
            refine iff_of_false SortedSet.not_mem_empty ?_
            rintro ⟨r, hr, hsame, -⟩
            have hsome := (h.owned (fold row.name)).mpr ⟨r, hr, hsame⟩
            rw [hget] at hsome
            cases hsome
        | some old => exact h.owners _ old hget t
      · exact ⟨fun heq => ⟨rfl, heq.symm⟩, fun hrow => hrow.2.symm⟩
    · rw [if_neg hname] at htables
      rw [h.owners name tables htables t]
      exact (or_iff_left fun hrow => hname hrow.1.symm).symm
  owned name := by
    rw [get?_owners_add]
    simp only [List.mem_append, List.mem_singleton, or_and_right, exists_or, exists_eq_left]
    by_cases hname : name = fold row.name
    · rw [if_pos hname]
      exact iff_of_true rfl (Or.inr hname.symm)
    · rw [if_neg hname, h.owned name]
      exact (or_iff_left fun heq => hname heq.symm).symm

/-- A name that is listed has an owner. -/
theorem exists_owner (h : o.FilledBy spelling rows) {name : String}
    {tables : SortedSet String} (htables : o.ownersOf? name = some tables) :
    ∃ t, t ∈ tables := by
  obtain ⟨r, hr, hname⟩ := (h.owned (fold name)).mp (Option.isSome_iff_exists.mpr ⟨_, htables⟩)
  exact ⟨spelling r.table, (h.owners _ tables htables _).mpr ⟨r, hr, hname, rfl⟩⟩

/-- An owner of a name has an object of that name. -/
theorem exists_get?_of_owner (h : o.FilledBy spelling rows)
    (hfold : ∀ t, fold (spelling t) = fold t) {name : String} {tables : SortedSet String}
    (htables : o.ownersOf? name = some tables) {t : String} (ht : t ∈ tables) :
    ∃ r, o.get? t name = some r := by
  obtain ⟨r, hr, hname, rfl⟩ := (h.owners _ tables htables t).mp ht
  have hkey : r.normalized = normalizedKey (spelling r.table) name := by
    rw [ObjectRef.normalized, normalizedKey, normalizedKey, hfold, hname]
  rw [← Option.isSome_iff_exists, Owned.get?, h.refs, Option.isSome_map, List.find?_isSome]
  exact ⟨r, hr, decide_eq_true hkey⟩

end Owned.FilledBy

/-- A name that is listed has owners, and each of them has an object of that name. -/
def Owned.OwnersHaveObjects (o : Owned) : Prop :=
  ∀ name owners, o.ownersOf? name = some owners →
    (∃ owner, owner ∈ owners) ∧ ∀ owner ∈ owners, ∃ r, o.get? owner name = some r

theorem Owned.FilledBy.ownersHaveObjects {o : Owned} {spelling : String → String}
    {rows : List ObjectRef} (h : o.FilledBy spelling rows)
    (hfold : ∀ t, fold (spelling t) = fold t) : o.OwnersHaveObjects :=
  fun _ _ howners =>
    ⟨h.exists_owner howners, fun _ howner => h.exists_get?_of_owner hfold howners howner⟩

/-- What a bare name can mean is what is found with its owners; none has to be made up. -/
theorem Owned.OwnersHaveObjects.named_eq_filterMap {o : Owned} (h : o.OwnersHaveObjects)
    {name : String} {owners : SortedSet String} (howners : o.ownersOf? name = some owners) :
    o.named owners name = owners.toList.filterMap fun owner => o.get? owner name := by
  rw [Owned.named, ← List.filterMap_eq_map]
  refine List.filterMap_congr fun owner howner => ?_
  obtain ⟨r, hr⟩ := (h name owners howners).2 owner howner
  rw [Function.comp_apply, hr, Option.getD_some]

namespace Index

theorem fold_spelling_of_tables {i : Index} {names : List String}
    (h : ∀ key, i.tables.get? key = names.find? fun t => fold t = key) (table : String) :
    fold (i.spelling table) = fold table := by
  rw [spelling, table?, h]
  cases hfind : names.find? fun t => fold t = fold table with
  | none => rfl
  | some t =>
      have hsame := List.find?_some hfind
      rw [decide_eq_true_eq] at hsame
      exact hsame

theorem spelling_withMeasures (i : Index) (o : Owned) :
    ({ i with measures := o } : Index).spelling = i.spelling := rfl

theorem spelling_withColumns (i : Index) (o : Owned) :
    ({ i with columns := o } : Index).spelling = i.spelling := rfl

namespace FilledBy

variable {i : Index} {as : List Addition}

theorem empty : Index.FilledBy {} [] where
  tables _ := rfl
  measures := .empty _
  columns := .empty _

theorem fold_spelling (h : i.FilledBy as) (table : String) :
    fold (i.spelling table) = fold table := fold_spelling_of_tables h.tables table

/-- An object is found under any spelling of its table. -/
theorem get?_spelling (h : i.FilledBy as) (o : Owned) (table name : String) :
    o.get? (i.spelling table) name = o.get? table name := by
  rw [Owned.get?, Owned.get?, normalizedKey, normalizedKey, h.fold_spelling]

/-- The tables of the rows are known. -/
theorem isSome_table? (h : i.FilledBy as) {r : ObjectRef}
    (hr : r ∈ as.filterMap (·.measure?) ∨ r ∈ as.filterMap (·.column?)) :
    (i.table? r.table).isSome := by
  have hmem : r.table ∈ as.filterMap (·.table?) := by
    simp only [List.mem_filterMap] at hr ⊢
    rcases hr with ⟨a, ha, hrow⟩ | ⟨a, ha, hrow⟩
    · refine ⟨a, ha, ?_⟩
      cases a with
      | measure table name => exact congrArg (Option.map ObjectRef.table) hrow
      | table name => cases hrow
      | column table name => cases hrow
    · refine ⟨a, ha, ?_⟩
      cases a with
      | column table name => exact congrArg (Option.map ObjectRef.table) hrow
      | table name => cases hrow
      | measure table name => cases hrow
  rw [Index.table?, h.tables, List.find?_isSome]
  exact ⟨r.table, hmem, decide_eq_true rfl⟩

/-- A table that is known keeps its spelling. -/
theorem spelling_addTable {table : String} (htable : (i.table? table).isSome)
    (name : String) : (i.addTable name).spelling table = i.spelling table := by
  obtain ⟨spelled, hget⟩ := Option.isSome_iff_exists.mp htable
  rw [Index.table?] at hget
  rw [Index.addTable]
  split
  · rfl
  · rw [spelling, spelling, table?, table?, SortedMap.get?_insertNew_ite, hget]
    simp

/-- What an addition does to the tables, whether it adds a row or not. -/
theorem tables_addTable (h : i.FilledBy as) {a : Addition} {name : String}
    (ha : a.table? = if name.isEmpty then none else some name) (key : String) :
    (i.addTable name).tables.get? key =
      ((as ++ [a]).filterMap (·.table?)).find? fun t => fold t = key := by
  rw [List.filterMap_append, List.find?_append, ← h.tables, Index.addTable]
  by_cases hname : name.isEmpty = true
  · rw [if_pos hname] at ha ⊢
    simp [ha]
  · rw [if_neg hname] at ha ⊢
    rw [SortedMap.get?_insertNew_ite]
    cases hget : i.tables.get? key with
    | some t => simp
    | none =>
        by_cases hkey : fold name = key
        · simp [ha, hkey]
        · have hne : key ≠ fold name := fun heq => hkey heq.symm
          simp [ha, hkey, hne]

/-- An addition without a row leaves the rows as they are. -/
theorem filterMap_append_none {β : Type} {f : Addition → Option β} {a : Addition}
    (h : f a = none) (as : List Addition) :
    (as ++ [a]).filterMap f = as.filterMap f := by
  rw [List.filterMap_append]
  simp [h]

theorem filterMap_append_some {β : Type} {f : Addition → Option β} {a : Addition} {b : β}
    (h : f a = some b) (as : List Addition) :
    (as ++ [a]).filterMap f = as.filterMap f ++ [b] := by
  rw [List.filterMap_append]
  simp [h]

/-- Adding a table changes nothing about the rows. -/
theorem rows_addTable (h : i.FilledBy as) (name : String) :
    (i.addTable name).measures.FilledBy (i.addTable name).spelling
        (as.filterMap (·.measure?))
      ∧ (i.addTable name).columns.FilledBy (i.addTable name).spelling
        (as.filterMap (·.column?)) := by
  have hmeasures : (i.addTable name).measures = i.measures := by
    rw [Index.addTable]
    split
    · rfl
    · rfl
  have hcolumns : (i.addTable name).columns = i.columns := by
    rw [Index.addTable]
    split
    · rfl
    · rfl
  rw [hmeasures, hcolumns]
  exact ⟨h.measures.congr fun r hr => spelling_addTable (h.isSome_table? (Or.inl hr)) name,
    h.columns.congr fun r hr => spelling_addTable (h.isSome_table? (Or.inr hr)) name⟩

theorem add_table (h : i.FilledBy as) (name : String) :
    (i.add (.table name)).FilledBy (as ++ [.table name]) where
  tables := h.tables_addTable rfl
  measures := by
    rw [filterMap_append_none rfl]
    exact (h.rows_addTable name).1
  columns := by
    rw [filterMap_append_none rfl]
    exact (h.rows_addTable name).2

/-- An addition that is not used changes nothing. -/
theorem skip (h : i.FilledBy as) {a : Addition} (htable : a.table? = none)
    (hmeasure : a.measure? = none) (hcolumn : a.column? = none) : i.FilledBy (as ++ [a]) where
  tables := by
    rw [filterMap_append_none htable]
    exact h.tables
  measures := by
    rw [filterMap_append_none hmeasure]
    exact h.measures
  columns := by
    rw [filterMap_append_none hcolumn]
    exact h.columns

/-- Two names make a row, or one of them is missing and there is none. -/
theorem row?_cases (table name : String) :
    (table.isEmpty || name.isEmpty) = true ∧ Addition.row? table name = none
      ∨ (table.isEmpty || name.isEmpty) = false ∧ table.isEmpty = false
        ∧ Addition.row? table name = some ⟨table, name⟩ := by
  cases hempty : table.isEmpty || name.isEmpty with
  | true => exact Or.inl ⟨rfl, if_pos hempty⟩
  | false =>
      refine Or.inr ⟨rfl, (Bool.or_eq_false_iff.mp hempty).1, if_neg ?_⟩
      rw [hempty]
      exact Bool.false_ne_true

theorem add_measure (h : i.FilledBy as) (table name : String) :
    (i.add (.measure table name)).FilledBy (as ++ [.measure table name]) := by
  rw [Index.add, Index.addMeasure]
  rcases row?_cases table name with ⟨hempty, hrow⟩ | ⟨hempty, hname, hrow⟩
  · rw [if_pos hempty]
    exact h.skip (by rw [Addition.table?, hrow, Option.map_none]) hrow rfl
  · rw [hempty, if_neg Bool.false_ne_true]
    have htable : (Addition.measure table name).table? =
        if table.isEmpty then none else some table := by
      rw [Addition.table?, hrow, hname]
      rfl
    have htables := h.tables_addTable htable
    obtain ⟨hmeasures, hcolumns⟩ := h.rows_addTable table
    have hfold := fold_spelling_of_tables htables table
    refine ⟨htables, ?_, ?_⟩
    · rw [filterMap_append_some (a := .measure table name) hrow, spelling_withMeasures]
      exact @Owned.FilledBy.add _ _ _ hmeasures ⟨table, name⟩ hfold
    · rw [filterMap_append_none (a := .measure table name) rfl, spelling_withMeasures]
      exact hcolumns

theorem add_column (h : i.FilledBy as) (table name : String) :
    (i.add (.column table name)).FilledBy (as ++ [.column table name]) := by
  rw [Index.add, Index.addColumn]
  rcases row?_cases table name with ⟨hempty, hrow⟩ | ⟨hempty, hname, hrow⟩
  · rw [if_pos hempty]
    exact h.skip (by rw [Addition.table?, hrow, Option.map_none]) rfl hrow
  · rw [hempty, if_neg Bool.false_ne_true]
    have htable : (Addition.column table name).table? =
        if table.isEmpty then none else some table := by
      rw [Addition.table?, hrow, hname]
      rfl
    have htables := h.tables_addTable htable
    obtain ⟨hmeasures, hcolumns⟩ := h.rows_addTable table
    have hfold := fold_spelling_of_tables htables table
    refine ⟨htables, ?_, ?_⟩
    · rw [filterMap_append_none (a := .column table name) rfl, spelling_withColumns]
      exact hmeasures
    · rw [filterMap_append_some (a := .column table name) hrow, spelling_withColumns]
      exact @Owned.FilledBy.add _ _ _ hcolumns ⟨table, name⟩ hfold

theorem add (h : i.FilledBy as) (a : Addition) : (i.add a).FilledBy (as ++ [a]) := by
  cases a with
  | table name => exact h.add_table name
  | measure table name => exact h.add_measure table name
  | column table name => exact h.add_column table name

theorem foldl_add (h : i.FilledBy as) (more : List Addition) :
    (more.foldl Index.add i).FilledBy (as ++ more) := by
  induction more generalizing i as with
  | nil => rwa [List.append_nil]
  | cons a more ih =>
      have hmore := ih (h.add a)
      rwa [List.append_assoc] at hmore

end FilledBy

/-- An index is filled by the additions it has been given. -/
theorem filledBy_ofAdditions (as : List Addition) : (ofAdditions as).FilledBy as :=
  FilledBy.empty.foldl_add as

end Index

end Tabular.Formula
