import Tabular.Proofs.Formula.Additions

/-!
# The maps of an index agree

An index has five maps: the spellings of the tables and, for measures as for columns, the
objects under their keys and the owners of each name. An addition changes several of them at
once, and some keep what came first while others grow. Still they never contradict each other.
An object stands under its own key, is owned by a table in the spelling of the index, and that
table is among the owners of its name. The other way round, whoever is listed as an owner of a
name is such a table and has an object of that name.

This is what makes one table count once: two spellings of a table are one key, so no name can
have both for owners. And since every owner has its object, a bare name is never answered with
an object that had to be made up.

All of it is read off what fills an index. A table is spelled by the first addition that names
it, and the rows that are kept carry that spelling.
-/

namespace Tabular.Formula

open Ordered Text

/-- The measures, or the columns, of an index, where the objects, the owners of their names and
the spellings of the tables agree. -/
structure Owned.WellFormed (o : Owned) (i : Index) : Prop where
  keyed : ∀ key r, o.refs.get? key = some r → r.normalized = key
  spelled : ∀ key r, o.refs.get? key = some r → i.table? r.table = some r.table
  listed : ∀ key r, o.refs.get? key = some r →
    ∃ owners, o.ownersOf? r.name = some owners ∧ r.table ∈ owners
  folded : ∀ key owners, o.owners.get? key = some owners → ∃ name, fold name = key
  known : ∀ name owners, o.ownersOf? name = some owners → ∀ t ∈ owners, i.table? t = some t
  apart : ∀ name owners, o.ownersOf? name = some owners →
    owners.toList.Pairwise fun s t => fold s ≠ fold t
  found : o.OwnersHaveObjects
  /-- No object that a bare name can mean is made up for want of a stored one. -/
  meant : ∀ name owners, o.ownersOf? name = some owners →
    o.named owners name = owners.toList.filterMap fun t => o.get? t name

/-- An index whose maps agree. -/
structure Index.WellFormed (i : Index) : Prop where
  folded : ∀ key t, i.tables.get? key = some t → fold t = key
  named : ∀ key t, i.tables.get? key = some t → t ≠ ""
  measures : i.measures.WellFormed i
  columns : i.columns.WellFormed i

/-- Each table of an index is spelled in another one as it is here. -/
def Index.SpelledIn (i j : Index) : Prop :=
  ∀ key t, i.tables.get? key = some t → j.tables.get? key = some t

/-- Whether nothing that an addition is about is empty. -/
def Addition.isComplete : Addition → Bool
  | .table name => !name.isEmpty
  | .measure owner name | .column owner name => !(owner.isEmpty || name.isEmpty)

/-! ## Objects and owners -/

namespace Owned.FilledBy

variable {o : Owned} {i : Index} {rows : List ObjectRef}

theorem exists_row {spelling : String → String} (h : o.FilledBy spelling rows) {key : String}
    {r : ObjectRef} (hr : o.refs.get? key = some r) :
    ∃ row ∈ rows, row.normalized = key ∧ r = ⟨spelling row.table, row.name⟩ := by
  rw [h.refs key] at hr
  obtain ⟨row, hrow, rfl⟩ := Option.map_eq_some_iff.mp hr
  have hkey := List.find?_some hrow
  exact ⟨row, List.mem_of_find?_eq_some hrow, of_decide_eq_true hkey, rfl⟩

/-- Rows whose tables an index knows fill it in such a way that all agrees. -/
theorem wellFormed (h : o.FilledBy i.spelling rows)
    (hfold : ∀ t, fold (i.spelling t) = fold t)
    (hknown : ∀ row ∈ rows, i.table? (i.spelling row.table) = some (i.spelling row.table)) :
    o.WellFormed i := by
  have hfound := h.ownersHaveObjects hfold
  have howner : ∀ name owners, o.ownersOf? name = some owners →
      ∀ t ∈ owners, i.table? t = some t := by
    intro name owners howners t ht
    obtain ⟨row, hrow, -, rfl⟩ := (h.owners _ owners howners t).mp ht
    exact hknown row hrow
  refine ⟨?keyed, ?spelled, ?listed, ?folded, howner, ?apart, hfound, ?meant⟩
  case keyed =>
    intro key r hr
    obtain ⟨row, -, rfl, rfl⟩ := h.exists_row hr
    exact normalizedKey_of_fold_eq (hfold row.table)
  case spelled =>
    intro key r hr
    obtain ⟨row, hrow, -, rfl⟩ := h.exists_row hr
    exact hknown row hrow
  case listed =>
    intro key r hr
    obtain ⟨row, hrow, -, rfl⟩ := h.exists_row hr
    obtain ⟨owners, howners⟩ := Option.isSome_iff_exists.mp
      ((h.owned (fold row.name)).mpr ⟨row, hrow, rfl⟩)
    exact ⟨owners, howners, (h.owners _ owners howners _).mpr ⟨row, hrow, rfl, rfl⟩⟩
  case folded =>
    intro key owners howners
    obtain ⟨row, -, hname⟩ := (h.owned key).mp (Option.isSome_iff_exists.mpr ⟨owners, howners⟩)
    exact ⟨row.name, hname⟩
  case apart =>
    intro name owners howners
    refine (SortedSet.nodup_of_strictlySorted owners.sorted).imp_of_mem ?_
    intro s t hs ht hne hsame
    -- one lowercase name has one spelling
    have hspelled := howner name owners howners s hs
    rw [Index.table?, hsame] at hspelled
    exact hne (Option.some.inj (hspelled.symm.trans (howner name owners howners t ht)))
  case meant =>
    intro name owners howners
    exact hfound.named_eq_filterMap howners

end Owned.FilledBy

/-! ## Tables -/

namespace Index

variable {i : Index} {as : List Addition}

theorem FilledBy.table?_spelling (h : i.FilledBy as) {t : String} (ht : (i.table? t).isSome) :
    i.table? (i.spelling t) = some (i.spelling t) := by
  obtain ⟨s, hs⟩ := Option.isSome_iff_exists.mp ht
  rw [table?, h.fold_spelling, spelling, hs]
  exact hs

theorem ne_empty_of_mem_tables {t : String} (h : t ∈ as.filterMap (·.table?)) : t ≠ "" := by
  obtain ⟨a, -, ha⟩ := List.mem_filterMap.mp h
  rintro rfl
  cases a with
  | table name =>
      simp only [Addition.table?] at ha
      split at ha
      · cases ha
      · next hname => exact hname (by rw [Option.some.inj ha]; rfl)
  | measure table name | column table name =>
      simp only [Addition.table?, Addition.row?] at ha
      split at ha
      · cases ha
      · next hrow =>
          have htable : table = "" := by simpa using ha
          exact hrow (by rw [htable]; rfl)

theorem FilledBy.wellFormed (h : i.FilledBy as) : i.WellFormed := by
  have htable : ∀ key t, i.tables.get? key = some t →
      fold t = key ∧ t ∈ as.filterMap (·.table?) := by
    intro key t ht
    rw [h.tables key] at ht
    have hkey := List.find?_some ht
    exact ⟨of_decide_eq_true hkey, List.mem_of_find?_eq_some ht⟩
  refine ⟨?folded, ?named, ?measures, ?columns⟩
  case folded => exact fun key t ht => (htable key t ht).1
  case named => exact fun key t ht => ne_empty_of_mem_tables (htable key t ht).2
  case measures =>
    exact h.measures.wellFormed h.fold_spelling fun row hrow =>
      h.table?_spelling (h.isSome_table? (Or.inl hrow))
  case columns =>
    exact h.columns.wellFormed h.fold_spelling fun row hrow =>
      h.table?_spelling (h.isSome_table? (Or.inr hrow))

/-! ## Runs of additions -/

theorem spelledIn_append (as later : List Addition) :
    (ofAdditions as).SpelledIn (ofAdditions (as ++ later)) := by
  intro key t ht
  rw [(filledBy_ofAdditions as).tables key] at ht
  rw [(filledBy_ofAdditions _).tables key, List.filterMap_append, List.find?_append, ht,
    Option.some_or]

theorem add_of_not_isComplete (i : Index) {a : Addition} (ha : ¬ a.isComplete = true) :
    i.add a = i := by
  cases a with
  | table name =>
      rw [add, addTable]
      exact if_pos (by simpa [Addition.isComplete] using ha)
  | measure table name =>
      rw [add, addMeasure]
      exact if_pos (by simpa [Addition.isComplete, or_iff_not_imp_left] using ha)
  | column table name =>
      rw [add, addColumn]
      exact if_pos (by simpa [Addition.isComplete, or_iff_not_imp_left] using ha)

theorem foldl_add_filter_isComplete (i : Index) (as : List Addition) :
    (as.filter (·.isComplete)).foldl add i = as.foldl add i := by
  induction as generalizing i with
  | nil => rfl
  | cons a as ih =>
      by_cases ha : a.isComplete = true
      · rw [List.filter_cons_of_pos ha, List.foldl_cons, List.foldl_cons, ih]
      · rw [List.filter_cons_of_neg ha, List.foldl_cons, i.add_of_not_isComplete ha, ih]

/-- Whatever is added to an index, its maps agree, no table is spelled anew by what is added
later, and an addition with an empty table or name might as well not be there. -/
theorem wellFormed_ofAdditions (as later : List Addition) :
    (ofAdditions as).WellFormed
      ∧ (ofAdditions as).SpelledIn (ofAdditions (as ++ later))
      ∧ ofAdditions (as.filter (·.isComplete)) = ofAdditions as :=
  ⟨(filledBy_ofAdditions as).wellFormed, spelledIn_append as later,
    foldl_add_filter_isComplete {} as⟩

end Index

end Tabular.Formula
