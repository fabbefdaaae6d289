import Tabular.Proofs.Formula.Additions
import Tabular.Proofs.Formula.References

/-!
# What the index answers

A mention is answered as a name with a table, as a table or as a bare name, and each kind of
answer is read off the index field by field. A name with a table means the measure of that
name, else the column, else a column that the index does not know. A bare name means what its
owners have under it. Only where it has no owner at all is it unresolved, and only where it
has two or more is it ambiguous.
-/

namespace Tabular.Formula.References

open Ordered Text

variable {index : Index} {as : List Addition} {x : ObjectRef}

/-! ## A name with a table -/

theorem identifiers_ofQualified (index : Index) (owner name : String) :
    (ofQualified index owner name).identifiers = one name := by
  rw [ofQualified]
  split
  · rfl
  · rfl

theorem tables_ofQualified (index : Index) (owner name : String) :
    (ofQualified index owner name).tables = one (index.spelling owner) := by
  rw [ofQualified]
  split
  · rfl
  · rfl

/-- A name with a table is neither unresolved nor ambiguous. -/
theorem undecided_ofQualified (index : Index) (owner name : String) :
    (ofQualified index owner name).unresolved = ∅
      ∧ (ofQualified index owner name).ambiguous = ∅ := by
  rw [ofQualified]
  split
  · exact ⟨rfl, rfl⟩
  · exact ⟨rfl, rfl⟩

theorem mem_measures_ofQualified (h : index.FilledBy as) {owner name : String} :
    x ∈ (ofQualified index owner name).measures ↔
      index.measures.get? owner name = some x := by
  rw [ofQualified, h.get?_spelling]
  cases hget : index.measures.get? owner name with
  | none => exact iff_of_false SortedSet.not_mem_empty (Option.some_ne_none x).symm
  | some r => rw [mem_one, Option.some.injEq, eq_comm]

theorem mem_columns_ofQualified (h : index.FilledBy as) {owner name : String} :
    x ∈ (ofQualified index owner name).columns ↔
      index.measures.get? owner name = none ∧ (index.columns.get? owner name = some x
        ∨ index.columns.get? owner name = none ∧ x = ⟨index.spelling owner, name⟩) := by
  rw [ofQualified, h.get?_spelling, h.get?_spelling]
  cases hget : index.measures.get? owner name with
  | some r => exact iff_of_false SortedSet.not_mem_empty fun hx => Option.some_ne_none r hx.1
  | none =>
      rw [mem_one]
      cases hcolumn : index.columns.get? owner name with
      | some r => simp [eq_comm]
      | none => simp

/-! ## A bare name -/

/-- The objects that a bare name can mean are those that its owners have. -/
theorem mem_named {o : Owned} (h : o.OwnersHaveObjects) {name : String}
    {owners : SortedSet String} (howners : o.ownersOf? name = some owners) :
    x ∈ SortedSet.ofList (o.named owners name) ↔
      ∃ owner ∈ owners, o.get? owner name = some x := by
  rw [SortedSet.mem_ofList, h.named_eq_filterMap howners, List.mem_filterMap]
  rfl

theorem identifiers_ofBare (index : Index) (name : String) :
    (ofBare index name).identifiers = one name := by
  rw [ofBare]
  split
  · rfl
  · split
    · rfl
    · rfl

theorem mem_identifiers_ofBare (index : Index) (name : String) :
    name ∈ (ofBare index name).identifiers := by
  rw [identifiers_ofBare, mem_one]

theorem tables_ofBare (index : Index) (name : String) : (ofBare index name).tables = ∅ := by
  rw [ofBare]
  split
  · rfl
  · split
    · rfl
    · rfl

theorem mem_measures_ofBare (h : index.FilledBy as) {name : String} :
    x ∈ (ofBare index name).measures ↔
      (∃ owners, index.measures.ownersOf? name = some owners
        ∧ ∃ owner ∈ owners, index.measures.get? owner name = some x)
      ∨ index.measures.ownersOf? name = none ∧ index.columns.ownersOf? name = none
        ∧ x = ObjectRef.unresolved name := by
  rw [ofBare]
  cases howners : index.measures.ownersOf? name with
  | some owners => simp [mem_named (h.measures.ownersHaveObjects h.fold_spelling) howners]
  | none =>
      cases hcolumns : index.columns.ownersOf? name with
      | some owners => simp
      | none => simp [mem_one]

theorem mem_columns_ofBare (h : index.FilledBy as) {name : String} :
    x ∈ (ofBare index name).columns ↔
      index.measures.ownersOf? name = none
      ∧ ∃ owners, index.columns.ownersOf? name = some owners
        ∧ ∃ owner ∈ owners, index.columns.get? owner name = some x := by
  rw [ofBare]
  cases howners : index.measures.ownersOf? name with
  | some owners => simp
  | none =>
      cases hcolumns : index.columns.ownersOf? name with
      | some owners => simp [mem_named (h.columns.ownersHaveObjects h.fold_spelling) hcolumns]
      | none => simp

/-- A bare name is unresolved when it has no owner. -/
theorem mem_unresolved_ofBare {name x : String} :
    x ∈ (ofBare index name).unresolved ↔ x = name
      ∧ (index.measures.ownersOf? name).or (index.columns.ownersOf? name) = none := by
  rw [ofBare]
  cases hmeasures : index.measures.ownersOf? name with
  | some owners => simp
  | none =>
      cases hcolumns : index.columns.ownersOf? name with
      | some owners => simp
      | none => simp [mem_one]

theorem mem_ambiguity {owners : SortedSet String} {name x : String} :
    x ∈ ambiguity owners name ↔ x = name ∧ 2 ≤ owners.size := by
  rw [ambiguity]
  by_cases hsize : owners.size > 1
  · rw [if_pos hsize, mem_one]
    exact (and_iff_left hsize).symm
  · rw [if_neg hsize]
    exact iff_of_false SortedSet.not_mem_empty fun hx => hsize hx.2

/-- A bare name is ambiguous when its measures have two owners or, where it has no measure,
its columns have. -/
theorem mem_ambiguous_ofBare {name x : String} :
    x ∈ (ofBare index name).ambiguous ↔ x = name
      ∧ ∃ owners, (index.measures.ownersOf? name).or (index.columns.ownersOf? name) = some owners
        ∧ 2 ≤ owners.size := by
  rw [ofBare]
  cases hmeasures : index.measures.ownersOf? name with
  | some owners => simp [mem_ambiguity]
  | none =>
      cases hcolumns : index.columns.ownersOf? name with
      | some owners => simp [mem_ambiguity]
      | none => simp

end Tabular.Formula.References
