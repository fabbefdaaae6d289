import Tabular.Proofs.Formula.Answers
import Tabular.Proofs.Formula.WellFormed

/-!
# References are sorted into kinds without contradiction

A formula may mention an object several times, by its name alone, with a quoted table and with
a table in front of the bracket. These mentions are looked up in two ways, under the joined key
of a table and a name and among the owners of a name, and the answers are put together. They
never contradict each other: no object is a measure by one mention and a column by another,
the measures without a table are the names left unresolved, and a name is ambiguous only with
all of its owners among the references.

What keeps the two ways in step is that a column is only ever answered where the index has no
measure under the column's own key. For a name with a table that is what the look-up asks. For
a bare name it holds since the key of a measure of that name would put the measure's table
among the owners of the name. This step takes keys apart, which is safe as long as no table has
a bar in its name; the names of measures and columns may have any number of them.
-/

namespace Tabular.Formula

open Ordered Text

/-- Two or more owners of a name, different in more than case, who all have an object of that
name among some references. -/
structure SharedBy (owners : SortedSet String) (name : String) (refs : SortedSet ObjectRef) :
    Prop where
  several : 2 ≤ owners.size
  apart : owners.toList.Pairwise fun s t => fold s ≠ fold t
  answered : ∀ t ∈ owners, ∃ r ∈ refs, r.table = t ∧ fold r.name = fold name

/-- References that say nothing of an object or a name that the index, or they themselves,
contradict. -/
structure References.Classified (r : References) (i : Index) : Prop where
  apart : ∀ x : ObjectRef, x.table ≠ "" →
    ¬ ((∃ m ∈ r.measures, m.isNamed x.table x.name = true)
      ∧ ∃ c ∈ r.columns, c.isNamed x.table x.name = true)
  unowned : ∀ m, m ∈ r.measures ∧ m.table = "" ↔ ∃ name ∈ r.unresolved, m = .unresolved name
  recorded : ∀ name, name ∈ r.unresolved ∨ name ∈ r.ambiguous → name ∈ r.identifiers
  unresolved : ∀ name ∈ r.unresolved,
    i.measures.ownersOf? name = none ∧ i.columns.ownersOf? name = none
  ambiguous : ∀ name ∈ r.ambiguous,
    (∃ owners, i.measures.ownersOf? name = some owners ∧ SharedBy owners name r.measures)
    ∨ i.measures.ownersOf? name = none
      ∧ ∃ owners, i.columns.ownersOf? name = some owners ∧ SharedBy owners name r.columns

/-- No table that an index knows has a bar in its name. -/
def Index.Unbarred (i : Index) : Prop := ∀ key t, i.tables.get? key = some t → '|' ∉ t.toList

/-! ## Keys of tables without bars -/

namespace Owned.WellFormed

variable {o : Owned} {i : Index}

/-- What is found under the key of an object whose table has no bar is that object in some
case. -/
theorem fold_eq_of_get? (h : o.WellFormed i) (hbar : i.Unbarred) {c r : ObjectRef}
    (hc : '|' ∉ c.table.toList) (hr : o.refs.get? c.normalized = some r) :
    fold r.table = fold c.table ∧ fold r.name = fold c.name :=
  ObjectRef.fold_eq_of_notMem_table (hbar _ _ (h.spelled _ r hr)) hc (h.keyed _ r hr)

/-- What an owner has under a name is owned by it, in its own spelling. -/
theorem get?_owner (h : o.WellFormed i) (hbar : i.Unbarred) {owner name : String}
    {r : ObjectRef} (howner : i.table? owner = some owner) (hr : o.get? owner name = some r) :
    r.table = owner ∧ fold r.name = fold name := by
  obtain ⟨htable, hname⟩ :=
    h.fold_eq_of_get? hbar (c := ⟨owner, name⟩) (hbar _ _ howner) hr
  have hspelled := h.spelled _ r hr
  rw [Index.table?, htable] at hspelled
  exact ⟨Option.some.inj (hspelled.symm.trans howner), hname⟩

/-- A name without owners is the name of no object. -/
theorem refs_get?_eq_none (h : o.WellFormed i) (hbar : i.Unbarred) {c : ObjectRef}
    (hc : '|' ∉ c.table.toList) (hnone : o.ownersOf? c.name = none) :
    o.refs.get? c.normalized = none := by
  cases hget : o.refs.get? c.normalized with
  | none => rfl
  | some r =>
      obtain ⟨owners, howners, -⟩ := h.listed _ r hget
      rw [Owned.ownersOf?, (h.fold_eq_of_get? hbar hc hget).2] at howners
      exact absurd (howners.symm.trans hnone) (Option.some_ne_none owners)

/-- Owners of a name, among whose objects of that name are some references. -/
theorem sharedBy (h : o.WellFormed i) (hbar : i.Unbarred) {name : String}
    {owners : SortedSet String} (howners : o.ownersOf? name = some owners)
    (hseveral : 2 ≤ owners.size) {refs : SortedSet ObjectRef}
    (hrefs : ∀ owner ∈ owners, ∀ r, o.get? owner name = some r → r ∈ refs) :
    SharedBy owners name refs where
  several := hseveral
  apart := h.apart name owners howners
  answered owner howner := by
    obtain ⟨r, hr⟩ := (h.found name owners howners).2 owner howner
    exact ⟨r, hrefs owner howner r hr,
      h.get?_owner hbar (h.known name owners howners owner howner) hr⟩

end Owned.WellFormed

/-! ## What one mention is answered with -/

namespace References

variable {index : Index} {as : List Addition} {m : Mention} {r c : ObjectRef} {name : String}

/-- Only a bare name is left open. -/
theorem ofMention_eq_of_open
    (h : name ∈ (ofMention index m).unresolved ∨ name ∈ (ofMention index m).ambiguous) :
    ofMention index m = ofBare index name := by
  rcases ofMention_cases index m with ⟨owner, n, heq⟩ | ⟨table, heq⟩ | ⟨n, heq⟩ | heq
  · rw [heq, (undecided_ofQualified index owner n).1,
      (undecided_ofQualified index owner n).2] at h
    exact absurd h (by simp)
  · rw [heq] at h
    exact absurd h (not_or.mpr ⟨SortedSet.not_mem_empty, SortedSet.not_mem_empty⟩)
  · rw [heq, mem_unresolved_ofBare, mem_ambiguous_ofBare, ← and_or_left] at h
    rw [heq, h.1]
  · rw [heq] at h
    exact absurd h (not_or.mpr ⟨SortedSet.not_mem_empty, SortedSet.not_mem_empty⟩)

/-- A measure is one of the index, or stands for a name without owners. -/
theorem measures_ofMention (h : index.FilledBy as) (hr : r ∈ (ofMention index m).measures) :
    index.measures.refs.get? r.normalized = some r
      ∨ ∃ name ∈ (ofMention index m).unresolved, r = .unresolved name := by
  have hstored : ∀ key, index.measures.refs.get? key = some r →
      index.measures.refs.get? r.normalized = some r := by
    intro key hget
    rwa [h.wellFormed.measures.keyed key r hget]
  rcases ofMention_cases index m with ⟨owner, n, heq⟩ | ⟨table, heq⟩ | ⟨n, heq⟩ | heq
  · rw [heq, mem_measures_ofQualified h] at hr
    exact Or.inl (hstored _ hr)
  · rw [heq] at hr
    exact absurd hr SortedSet.not_mem_empty
  · rw [heq, mem_measures_ofBare h] at hr
    rcases hr with ⟨-, -, owner, -, hget⟩ | ⟨hmeasures, hcolumns, rfl⟩
    · exact Or.inl (hstored _ hget)
    · refine Or.inr ⟨n, ?_, rfl⟩
      rw [heq, mem_unresolved_ofBare, hmeasures, hcolumns]
      exact ⟨rfl, rfl⟩
  · rw [heq] at hr
    exact absurd hr SortedSet.not_mem_empty

/-- Where a column is answered, its own key is the key of no measure. -/
theorem columns_ofMention (h : index.FilledBy as) (hbar : index.Unbarred)
    (hc : c ∈ (ofMention index m).columns) :
    index.measures.refs.get? c.normalized = none := by
  have hkeyed := h.wellFormed.columns.keyed
  rcases ofMention_cases index m with ⟨owner, n, heq⟩ | ⟨table, heq⟩ | ⟨n, heq⟩ | heq
  · rw [heq, mem_columns_ofQualified h] at hc
    obtain ⟨hnone, hget | ⟨-, rfl⟩⟩ := hc
    · rwa [hkeyed _ c hget]
    · rwa [← h.get?_spelling] at hnone
  · rw [heq] at hc
    exact absurd hc SortedSet.not_mem_empty
  · rw [heq, mem_columns_ofBare h] at hc
    obtain ⟨hnone, owners, howners, owner, howner, hget⟩ := hc
    have hknown := h.wellFormed.columns.known n owners howners owner howner
    obtain ⟨htable, hname⟩ := h.wellFormed.columns.get?_owner hbar hknown hget
    refine h.wellFormed.measures.refs_get?_eq_none hbar ?_ ?_
    · rw [htable]
      exact hbar _ _ hknown
    · rwa [Owned.ownersOf?, hname]
  · rw [heq] at hc
    exact absurd hc SortedSet.not_mem_empty

/-! ## What a formula is answered with -/

variable {formula : String}

/-- What can be left open is left open for each bare name that the formula asks for. -/
theorem mem_resolve_of_open (field : References → SortedSet String)
    (hunion : ∀ r s : References, field (r ∪ s) = field r ∪ field s) (hempty : field ∅ = ∅)
    (hopen : ∀ m, name ∈ field (ofMention index m) → ofMention index m = ofBare index name) :
    name ∈ field (resolve index formula) ↔
      (∃ m ∈ mentions formula, ofMention index m = ofBare index name)
        ∧ name ∈ field (ofBare index name) := by
  rw [mem_resolve field hunion hempty]
  constructor
  · rintro ⟨m, hm, hname⟩
    have heq := hopen m hname
    exact ⟨⟨m, hm, heq⟩, heq ▸ hname⟩
  · rintro ⟨⟨m, hm, heq⟩, hname⟩
    exact ⟨m, hm, heq ▸ hname⟩

theorem mem_unresolved_resolve :
    name ∈ (resolve index formula).unresolved ↔
      (∃ m ∈ mentions formula, ofMention index m = ofBare index name)
        ∧ (index.measures.ownersOf? name).or (index.columns.ownersOf? name) = none := by
  rw [mem_resolve_of_open unresolved (fun _ _ => rfl) rfl
    fun _ hname => ofMention_eq_of_open (Or.inl hname), mem_unresolved_ofBare,
    and_iff_right rfl]

theorem mem_ambiguous_resolve :
    name ∈ (resolve index formula).ambiguous ↔
      (∃ m ∈ mentions formula, ofMention index m = ofBare index name)
        ∧ ∃ owners, (index.measures.ownersOf? name).or (index.columns.ownersOf? name)
          = some owners ∧ 2 ≤ owners.size := by
  rw [mem_resolve_of_open ambiguous (fun _ _ => rfl) rfl
    fun _ hname => ofMention_eq_of_open (Or.inr hname), mem_ambiguous_ofBare,
    and_iff_right rfl]

/-- No object is a measure by one mention and a column by another. -/
theorem normalized_ne_of_mem_resolve (h : index.FilledBy as) (hbar : index.Unbarred)
    (hr : r ∈ (resolve index formula).measures) (htable : r.table ≠ "")
    (hc : c ∈ (resolve index formula).columns) : r.normalized ≠ c.normalized := by
  intro hsame
  obtain ⟨m, -, hm⟩ := mem_measures_resolve.mp hr
  obtain ⟨m', -, hm'⟩ := mem_columns_resolve.mp hc
  have hnone := columns_ofMention h hbar hm'
  rcases measures_ofMention h hm with hstored | ⟨name, -, rfl⟩
  · rw [hsame, hnone] at hstored
    cases hstored
  · exact htable rfl

/-- The measures without a table are the names that are unresolved. -/
theorem mem_measures_and_unowned_iff (h : index.FilledBy as) :
    r ∈ (resolve index formula).measures ∧ r.table = "" ↔
      ∃ name ∈ (resolve index formula).unresolved, r = .unresolved name := by
  constructor
  · rintro ⟨hr, htable⟩
    obtain ⟨m, hm, hmem⟩ := mem_measures_resolve.mp hr
    rcases measures_ofMention h hmem with hstored | ⟨name, hname, rfl⟩
    · have hspelled := h.wellFormed.measures.spelled _ r hstored
      exact absurd htable (h.wellFormed.named _ _ hspelled)
    · exact ⟨name, (mem_resolve unresolved (fun _ _ => rfl) rfl).mpr ⟨m, hm, hname⟩, rfl⟩
  · rintro ⟨name, hname, rfl⟩
    obtain ⟨⟨m, hm, heq⟩, hnone⟩ := mem_unresolved_resolve.mp hname
    refine ⟨mem_measures_resolve.mpr ⟨m, hm, ?_⟩, rfl⟩
    rw [heq, mem_measures_ofBare h]
    exact Or.inr ⟨(Option.or_eq_none_iff.mp hnone).1, (Option.or_eq_none_iff.mp hnone).2, rfl⟩

/-- All owners of an ambiguous name have an object among the references. -/
theorem sharedBy_of_mem_ambiguous (h : index.FilledBy as) (hbar : index.Unbarred)
    (hname : name ∈ (resolve index formula).ambiguous) :
    (∃ owners, index.measures.ownersOf? name = some owners
        ∧ SharedBy owners name (resolve index formula).measures)
      ∨ index.measures.ownersOf? name = none
        ∧ ∃ owners, index.columns.ownersOf? name = some owners
          ∧ SharedBy owners name (resolve index formula).columns := by
  obtain ⟨⟨m, hm, heq⟩, owners, howners, hseveral⟩ := mem_ambiguous_resolve.mp hname
  cases hmeasures : index.measures.ownersOf? name with
  | some owners' =>
      rw [hmeasures, Option.some_or, Option.some.injEq] at howners
      subst howners
      refine Or.inl ⟨owners', rfl, h.wellFormed.measures.sharedBy hbar hmeasures hseveral ?_⟩
      intro owner howner r hget
      refine mem_measures_resolve.mpr ⟨m, hm, ?_⟩
      rw [heq, mem_measures_ofBare h]
      exact Or.inl ⟨owners', hmeasures, owner, howner, hget⟩
  | none =>
      rw [hmeasures, Option.none_or] at howners
      refine Or.inr ⟨rfl, owners, howners,
        h.wellFormed.columns.sharedBy hbar howners hseveral ?_⟩
      intro owner howner r hget
      refine mem_columns_resolve.mpr ⟨m, hm, ?_⟩
      rw [heq, mem_columns_ofBare h]
      exact ⟨hmeasures, owners, howners, owner, howner, hget⟩

end References

theorem Index.FilledBy.unbarred {i : Index} {as : List Addition} (h : i.FilledBy as)
    (hbar : ∀ t ∈ as.filterMap (·.table?), '|' ∉ t.toList) : i.Unbarred := by
  intro key t ht
  rw [h.tables key] at ht
  exact hbar t (List.mem_of_find?_eq_some ht)

/-- Whatever is added to an index, as long as no table has a bar in its name, the references of
every formula are sorted into kinds without contradiction. -/
theorem classified_resolve (as : List Addition) (formula : String)
    (hbar : ∀ t ∈ as.filterMap (·.table?), '|' ∉ t.toList) :
    (resolve (.ofAdditions as) formula).Classified (.ofAdditions as) := by
  have h := Index.filledBy_ofAdditions as
  have hunbarred := h.unbarred hbar
  refine ⟨?apart, ?unowned, ?recorded, ?unresolved, ?ambiguous⟩
  case apart =>
    rintro x htable ⟨⟨m, hm, hmx⟩, c, hc, hcx⟩
    have hsame : m.normalized = c.normalized :=
      (ObjectRef.normalized_eq_of_isNamed hmx).trans
        (ObjectRef.normalized_eq_of_isNamed hcx).symm
    refine References.normalized_ne_of_mem_resolve h hunbarred hm ?_ hc hsame
    intro hempty
    have hfold := (ObjectRef.isNamed_iff.mp hmx).1
    rw [hempty] at hfold
    exact htable (fold_eq_empty_iff.mp hfold.symm)
  case unowned => exact fun m => References.mem_measures_and_unowned_iff h
  case recorded =>
    intro name hopen
    obtain ⟨m, hm, heq⟩ := hopen.elim
      (fun hname => (References.mem_unresolved_resolve.mp hname).1)
      fun hname => (References.mem_ambiguous_resolve.mp hname).1
    refine (References.mem_resolve References.identifiers (fun _ _ => rfl) rfl).mpr ⟨m, hm, ?_⟩
    rw [heq]
    exact References.mem_identifiers_ofBare _ name
  case unresolved =>
    intro name hname
    exact Option.or_eq_none_iff.mp (References.mem_unresolved_resolve.mp hname).2
  case ambiguous => exact fun name hname => References.sharedBy_of_mem_ambiguous h hunbarred hname

/-- A measure with two owners, one of which has a column of that name as well. -/
def salesAndBudget : List Addition :=
  [.measure "Sales" "Total", .column "sales" "TOTAL", .measure "Budget" "total",
    .column "Sales" "a|b", .table "Region"]

/-- A bare name and a name with a table for one object, a name that is known nowhere, and names
with bars. -/
theorem classified_resolve_salesAndBudget :
    (∀ t ∈ salesAndBudget.filterMap (·.table?), '|' ∉ t.toList)
      ∧ (resolve (.ofAdditions salesAndBudget)
          "[Total] + 'Sales'[total] + Budget[a|b] + [Missing] + 'x|y'[z]").Classified
        (.ofAdditions salesAndBudget)
      ∧ "Total" ∈ (resolve (.ofAdditions salesAndBudget)
          "[Total] + 'Sales'[total] + Budget[a|b] + [Missing] + 'x|y'[z]").ambiguous
      ∧ "Missing" ∈ (resolve (.ofAdditions salesAndBudget)
          "[Total] + 'Sales'[total] + Budget[a|b] + [Missing] + 'x|y'[z]").unresolved := by
  have hbar : ∀ t ∈ salesAndBudget.filterMap (·.table?), '|' ∉ t.toList := by decide +kernel
  exact ⟨hbar, classified_resolve salesAndBudget _ hbar, by decide +kernel, by decide +kernel⟩

end Tabular.Formula
