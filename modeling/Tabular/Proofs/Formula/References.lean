import Tabular.Formula.References
import Tabular.Proofs.Formula.Index
import Tabular.Proofs.Object

/-!
# What references stand for

Every reference of a formula comes from one mention, and a mention is answered out of
the index. A reference to a measure is therefore one to a measure that the index has
been told of, unless no table is known for it; and where a measure is known, a formula
refers to no column.
-/

namespace Tabular.Formula

open Ordered Text

namespace References

variable {index : Index} {ms cs : List ObjectRef} {r : ObjectRef}

theorem mem_foldl_union {α : Type} [Ord α] [Std.TransOrd α] [Std.LawfulEqOrd α]
    (field : References → SortedSet α)
    (hunion : ∀ r s : References, field (r ∪ s) = field r ∪ field s) (mentions : List Mention)
    (r : References) (x : α) :
    x ∈ field (mentions.foldl (fun r m => r ∪ ofMention index m) r) ↔
      x ∈ field r ∨ ∃ m ∈ mentions, x ∈ field (ofMention index m) := by
  induction mentions generalizing r with
  | nil => simp
  | cons m rest ih =>
      rw [List.foldl_cons, ih, hunion, SortedSet.mem_union, or_assoc, List.exists_mem_cons_iff]

/-- A part of the references of a formula comes from one of its mentions. -/
theorem mem_resolve {α : Type} [Ord α] [Std.TransOrd α] [Std.LawfulEqOrd α]
    (field : References → SortedSet α)
    (hunion : ∀ r s : References, field (r ∪ s) = field r ∪ field s) (hempty : field ∅ = ∅)
    {formula : String} {x : α} :
    x ∈ field (resolve index formula) ↔
      ∃ m ∈ mentions formula, x ∈ field (ofMention index m) := by
  rw [resolve, ofMentions, mem_foldl_union field hunion, hempty]
  exact or_iff_right SortedSet.not_mem_empty

theorem mem_measures_resolve {formula : String} :
    r ∈ (resolve index formula).measures ↔
      ∃ m ∈ mentions formula, r ∈ (ofMention index m).measures :=
  mem_resolve References.measures (fun _ _ => rfl) rfl

theorem mem_columns_resolve {formula : String} :
    r ∈ (resolve index formula).columns ↔
      ∃ m ∈ mentions formula, r ∈ (ofMention index m).columns :=
  mem_resolve References.columns (fun _ _ => rfl) rfl

theorem mem_one {α : Type} [Ord α] [Std.TransOrd α] [Std.LawfulEqOrd α] {x y : α} :
    y ∈ one x ↔ y = x := by
  rw [one, SortedSet.mem_ofList, List.mem_singleton]

/-- A mention is answered as a name with a table, as a table, as a bare name or not at
all. -/
theorem ofMention_cases (index : Index) (m : Mention) :
    (∃ table name, ofMention index m = ofQualified index table name)
      ∨ (∃ table, ofMention index m = ofTable index table)
      ∨ (∃ name, ofMention index m = ofBare index name) ∨ ofMention index m = ∅ := by
  cases m with
  | qualified table name => exact Or.inl ⟨table, name, rfl⟩
  | table name => exact Or.inr (Or.inl ⟨name, rfl⟩)
  | bracketed lead name =>
      rw [ofMention]
      split
      · exact Or.inr (Or.inr (Or.inr rfl))
      · split
        · exact Or.inl ⟨_, _, rfl⟩
        · split
          · exact Or.inr (Or.inr (Or.inr rfl))
          · exact Or.inr (Or.inr (Or.inl ⟨name, rfl⟩))

/-- An object that a bare name can mean has the name and one of its tables. -/
theorem normalized_of_mem_named {o : Owned} {rows : List ObjectRef} (h : o.Holds rows)
    {owners : SortedSet String} {name : String} (hr : r ∈ o.named owners name) :
    ∃ table ∈ owners, r.normalized = normalizedKey table name := by
  obtain ⟨table, htable, rfl⟩ := List.mem_map.mp hr
  refine ⟨table, htable, ?_⟩
  cases hget : o.get? table name with
  | none => rfl
  | some found => exact h.normalized _ _ hget

theorem measures_ofQualified (h : index.Holds ms cs) {table name : String}
    (hr : r ∈ (ofQualified index table name).measures) :
    ∃ row ∈ ms, row.normalized = r.normalized := by
  rw [ofQualified] at hr
  cases hget : index.measures.get? (index.spelling table) name with
  | none =>
      simp only [hget] at hr
      exact absurd hr SortedSet.not_mem_empty
  | some found =>
      simp only [hget] at hr
      rw [mem_one.mp hr, h.measures.normalized _ _ hget]
      exact h.measures.declared _ _ hget

theorem measures_ofBare (h : index.Holds ms cs) {name : String}
    (hr : r ∈ (ofBare index name).measures) :
    r.table = "" ∨ ∃ row ∈ ms, row.normalized = r.normalized := by
  rw [ofBare] at hr
  cases howners : index.measures.ownersOf? name with
  | some owners =>
      simp only [howners] at hr
      obtain ⟨table, htable, hkey⟩ :=
        normalized_of_mem_named h.measures (SortedSet.mem_ofList.mp hr)
      obtain ⟨row, hrow, hfold⟩ := h.measures.owner _ owners howners table htable
      refine Or.inr ⟨row, hrow, ?_⟩
      rw [hkey, ObjectRef.normalized, normalizedKey, hfold.1, hfold.2]
      rfl
  | none =>
      cases hcolumns : index.columns.ownersOf? name with
      | some owners =>
          simp only [howners, hcolumns] at hr
          exact absurd hr SortedSet.not_mem_empty
      | none =>
          simp only [howners, hcolumns] at hr
          rw [mem_one.mp hr]
          exact Or.inl rfl

/-- A reference to a measure is one to a declared measure, or has no table. -/
theorem measures_resolve (h : index.Holds ms cs) {formula : String}
    (hr : r ∈ (resolve index formula).measures) :
    r.table = "" ∨ ∃ row ∈ ms, row.normalized = r.normalized := by
  obtain ⟨m, -, hm⟩ := mem_measures_resolve.mp hr
  rcases ofMention_cases index m with ⟨table, name, heq⟩ | ⟨table, heq⟩ | ⟨name, heq⟩ | heq
  · rw [heq] at hm
    exact Or.inr (measures_ofQualified h hm)
  · rw [heq] at hm
    exact absurd hm SortedSet.not_mem_empty
  · rw [heq] at hm
    exact measures_ofBare h hm
  · rw [heq] at hm
    exact absurd hm SortedSet.not_mem_empty

theorem columns_ofQualified (h : index.Holds ms cs) {table name : String} {row : ObjectRef}
    (hrow : row ∈ ms) (hplain : row.Plain)
    (hr : r ∈ (ofQualified index table name).columns) : row.normalized ≠ r.normalized := by
  intro hsame
  have hfound := (h.measures.found row hrow hplain.table_ne hplain.name_ne).1
  rw [ofQualified] at hr
  cases hget : index.measures.get? (index.spelling table) name with
  | some found =>
      simp only [hget] at hr
      exact absurd hr SortedSet.not_mem_empty
  | none =>
      simp only [hget] at hr
      have hkey : r.normalized = normalizedKey (index.spelling table) name := by
        rw [mem_one.mp hr]
        cases hcolumn : index.columns.get? (index.spelling table) name with
        | none => rfl
        | some found => exact h.columns.normalized _ _ hcolumn
      rw [hsame, hkey] at hfound
      rw [Owned.get?] at hget
      rw [hget] at hfound
      cases hfound

theorem columns_ofBare (h : index.Holds ms cs) {name : String} {row : ObjectRef}
    (hrow : row ∈ ms) (hplain : row.Plain)
    (hr : r ∈ (ofBare index name).columns) : row.normalized ≠ r.normalized := by
  intro hsame
  have hfound := (h.measures.found row hrow hplain.table_ne hplain.name_ne).2
  rw [ofBare] at hr
  cases howners : index.measures.ownersOf? name with
  | some owners =>
      simp only [howners] at hr
      exact absurd hr SortedSet.not_mem_empty
  | none =>
      cases hcolumns : index.columns.ownersOf? name with
      | none =>
          simp only [howners, hcolumns] at hr
          exact absurd hr SortedSet.not_mem_empty
      | some owners =>
          simp only [howners, hcolumns] at hr
          obtain ⟨table, -, hkey⟩ :=
            normalized_of_mem_named h.columns (SortedSet.mem_ofList.mp hr)
          have hname : normalizedKey table name = row.normalized := hkey.symm.trans hsame.symm
          have hfold := (ObjectRef.fold_eq_of_normalized_eq (r := ⟨table, name⟩) hplain hname).2
          rw [← hfold] at hfound
          rw [Owned.ownersOf?] at howners
          rw [howners] at hfound
          cases hfound

/-- Where a measure is declared, a formula refers to no column. -/
theorem columns_resolve (h : index.Holds ms cs) {formula : String} {row : ObjectRef}
    (hrow : row ∈ ms) (hplain : row.Plain) (hr : r ∈ (resolve index formula).columns) :
    row.normalized ≠ r.normalized := by
  obtain ⟨m, -, hm⟩ := mem_columns_resolve.mp hr
  rcases ofMention_cases index m with ⟨table, name, heq⟩ | ⟨table, heq⟩ | ⟨name, heq⟩ | heq
  · rw [heq] at hm
    exact columns_ofQualified h hrow hplain hm
  · rw [heq] at hm
    exact absurd hm SortedSet.not_mem_empty
  · rw [heq] at hm
    exact columns_ofBare h hrow hplain hm
  · rw [heq] at hm
    exact absurd hm SortedSet.not_mem_empty

end References

end Tabular.Formula
