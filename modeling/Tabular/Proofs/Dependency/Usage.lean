import Tabular.Proofs.Dependency.Listing

/-!
# When the answers about uses agree

Who uses an object can be asked in three ways. The unused objects and the use of a
column are answered from the references kept under the keys of owners, of which each key
has those of its last formula; the impact of an object is answered from the edges, and
these are of all formulas.

For one column, the owners found in the one way are those found in the other exactly
when two things hold of every key: what any formula of an owner with this key leads to
is named by the last one, and what the last one names a formula leads to that belongs to
an object of the kind that answers for the key. A formula that is declared again with
other references breaks the first; an object that hides behind another breaks the second.
-/

namespace Tabular.Dependency

open Ordered Formula

/-- The kind of the first object with a key; a key of no object passes for a measure. -/
def kindAt (c : Catalog) (key : Key) : ObjectKind :=
  ((firstWithKey? c key).map (·.kind)).getD .measure

variable {c : Catalog} {index : Index}

theorem mem_nodes_keys_of_firstWithKey? {key : Key} {n : Node}
    (h : firstWithKey? c key = some n) : key ∈ (Graph.build c index).nodes.keys :=
  Graph.mem_nodes_keys_build.mpr ⟨n, mem_ofCatalog_of_firstWithKey? h⟩

theorem mem_nodes_keys_of_column {col : Column} (h : col ∈ c.columns) :
    col.key ∈ (Graph.build c index).nodes.keys :=
  Graph.mem_nodes_keys_build.mpr ⟨.ofColumn col, ofColumn_mem_ofCatalog h, rfl⟩

namespace Graph

/-- The owners of one kind that use a column, by the references kept for them. -/
def columnUsers (c : Catalog) (index : Index) (kind : ObjectKind) (col : Column) : List Key :=
  ((build c index).columnOwners col.table col.name).filter fun key => kindAt c key == kind

variable {rules : UsageRules} {bs : List Binding} {kind : ObjectKind} {col : Column}

theorem isMeasureOwner_eq (key : Key) :
    (build c index).isMeasureOwner key = (kindAt c key == .measure) := by
  rw [isMeasureOwner, get?_nodes_build]
  rfl

theorem columnUsage_measures (col : Column) :
    ((reported c index rules bs).columnUsage col.table col.name).measures =
      columnUsers c index .measure col := by
  have hpartition : ((reported c index rules bs).columnUsage col.table col.name).measures =
      (((build c index).columnOwners col.table col.name).partition
        (build c index).isMeasureOwner).1 := rfl
  rw [hpartition, List.partition_eq_filter_filter]
  exact List.filter_congr fun key _ => isMeasureOwner_eq key

theorem columnUsage_calculatedColumns (col : Column) :
    ((reported c index rules bs).columnUsage col.table col.name).calculatedColumns =
      columnUsers c index .column col := by
  have hpartition :
      ((reported c index rules bs).columnUsage col.table col.name).calculatedColumns =
        (((build c index).columnOwners col.table col.name).partition
          (build c index).isMeasureOwner).2 := rfl
  rw [hpartition, List.partition_eq_filter_filter]
  refine List.filter_congr fun key _ => ?_
  rw [Function.comp_apply, isMeasureOwner_eq]
  cases kindAt c key with
  | measure => rfl
  | column => rfl

theorem impact_measures (key : Key) :
    ((reported c index rules bs).impact key).measures =
      (build c index).dependents .measure key :=
  dependents_canonical (keyed_build c index) .measure key

theorem impact_calculatedColumns (key : Key) :
    ((reported c index rules bs).impact key).calculatedColumns =
      (build c index).dependents .column key :=
  dependents_canonical (keyed_build c index) .column key

theorem columnUsers_sorted (c : Catalog) (index : Index) (kind : ObjectKind) (col : Column) :
    StrictlySorted (columnUsers c index kind col) := by
  have hsub : (columnUsers c index kind col).Sublist (build c index).references.keys :=
    List.filter_sublist.trans (List.filter_sublist.map _)
  exact (build c index).references.keys_sorted.sublist hsub

theorem dependents_sorted (g : Graph) (kind : ObjectKind) (key : Key) :
    StrictlySorted (g.dependents kind key) := SortedSet.sorted _

theorem mem_columnUsers {key : Key} :
    key ∈ columnUsers c index kind col ↔ kindAt c key = kind
      ∧ ∃ last, OwnedFormula.lastWithKey? c index key = some last
        ∧ last.Names col.table col.name := by
  rw [columnUsers, List.mem_filter, mem_columnOwners_build, beq_iff_eq, and_comm]

theorem columnUsers_eq_dependents_iff (hcol : col ∈ c.columns) :
    columnUsers c index kind col = (build c index).dependents kind col.key ↔
      ∀ key, key ∈ columnUsers c index kind col ↔
        ∃ f ∈ OwnedFormula.ofCatalog c index, f.key = key ∧ f.kind = kind
          ∧ f.LeadsTo c col.key := by
  have hmem : ∀ key, key ∈ (build c index).dependents kind col.key ↔
      ∃ f ∈ OwnedFormula.ofCatalog c index, f.key = key ∧ f.kind = kind
        ∧ f.LeadsTo c col.key :=
    fun key => mem_dependents_build (mem_nodes_keys_of_column hcol)
  constructor
  · intro h key
    rw [h]
    exact hmem key
  · intro h
    refine eq_of_strictlySorted (columnUsers_sorted c index kind col)
      (dependents_sorted _ kind col.key) fun key => ?_
    exact (h key).trans (hmem key).symm

/-- The three answers agree: nothing listed as unused has a user by its impact, and the
users of a column are those of its impact. -/
structure UsageAgrees (c : Catalog) (g : Graph) : Prop where
  measures : ∀ r ∈ g.unusedObjects.measures,
    (g.impact r.key).measures = [] ∧ (g.impact r.key).calculatedColumns = []
  columns : ∀ r ∈ g.unusedObjects.columns,
    (g.impact r.key).measures = [] ∧ (g.impact r.key).calculatedColumns = []
  columnUsage : ∀ col ∈ c.columns,
    (g.columnUsage col.table col.name).measures = (g.impact col.key).measures
      ∧ (g.columnUsage col.table col.name).calculatedColumns =
        (g.impact col.key).calculatedColumns

/-- The references that are kept say what all formulas say. What answers for a measure or
column that a formula leads to is used, or left out. What a formula leads to as a column,
the last formula with its key names, and an object of the kind of its owner answers for
the key. And what the last formula with a key names, some formula with the key leads to
that has an owner of the kind that answers for it. -/
structure UsesKept (c : Catalog) (index : Index) (rules : UsageRules) (bs : List Binding) :
    Prop where
  measures : ∀ f ∈ OwnedFormula.ofCatalog c index, ∀ key ∈ c.measures.map (·.key),
    f.LeadsTo c key → ∀ n, firstWithKey? c key = some n →
      IsUsed c index rules bs .measure n.object
  columns : ∀ f ∈ OwnedFormula.ofCatalog c index, ∀ key ∈ c.columns.map (·.key),
    f.LeadsTo c key → ∀ n, firstWithKey? c key = some n →
      passesOver rules.columns n = true ∨ IsUsed c index rules bs .column n.object
  named : ∀ f ∈ OwnedFormula.ofCatalog c index, ∀ col ∈ c.columns,
    f.LeadsTo c col.key → kindAt c f.key = f.kind
      ∧ ∃ last, OwnedFormula.lastWithKey? c index f.key = some last
        ∧ last.Names col.table col.name
  led : ∀ key last, OwnedFormula.lastWithKey? c index key = some last → ∀ col ∈ c.columns,
    last.Names col.table col.name → ∃ f ∈ OwnedFormula.ofCatalog c index,
      f.key = key ∧ f.kind = kindAt c key ∧ f.LeadsTo c col.key

/-- What is shown under some keys has no users exactly when no formula leads to a key
that is shown. -/
theorem shown_unused_iff (rules : UsageRules) (bs : List Binding) {shows : Node → Bool}
    {keys : List Key} :
    (∀ r ∈ shown c shows keys, ((reported c index rules bs).impact r.key).measures = []
        ∧ ((reported c index rules bs).impact r.key).calculatedColumns = []) ↔
      ∀ f ∈ OwnedFormula.ofCatalog c index, ∀ key ∈ keys,
        f.LeadsTo c key →
          ∀ n, firstWithKey? c key = some n → shows n = false := by
  constructor
  · intro h f hf key hkey hleads n hn
    have hnkey : n.object.key = key := (mem_ofCatalog_of_firstWithKey? hn).2
    have hnode : key ∈ (build c index).nodes.keys := mem_nodes_keys_of_firstWithKey? hn
    have howner : f.key ∈ (build c index).dependents f.kind key :=
      (mem_dependents_build hnode).mpr ⟨f, hf, rfl, rfl, hleads⟩
    by_contra hshows
    rw [Bool.not_eq_false] at hshows
    obtain ⟨hmeasures, hcolumns⟩ := h n.object
      (mem_shown.mpr ⟨by rw [hnkey]; exact hkey, n, by rw [hnkey]; exact hn, rfl, hshows⟩)
    rw [hnkey] at hmeasures hcolumns
    rw [impact_measures] at hmeasures
    rw [impact_calculatedColumns] at hcolumns
    cases hkind : f.kind with
    | measure =>
        rw [hkind, hmeasures] at howner
        exact absurd howner List.not_mem_nil
    | column =>
        rw [hkind, hcolumns] at howner
        exact absurd howner List.not_mem_nil
  · intro h r hr
    obtain ⟨hkey, n, hn, rfl, hshows⟩ := mem_shown.mp hr
    have hnode : n.object.key ∈ (build c index).nodes.keys :=
      mem_nodes_keys_of_firstWithKey? hn
    have hnone : ∀ kind, (build c index).dependents kind n.object.key = [] := by
      refine fun kind => List.eq_nil_iff_forall_not_mem.mpr fun owner howner => ?_
      obtain ⟨f, hf, -, -, hleads⟩ := (mem_dependents_build hnode).mp howner
      rw [h f hf _ hkey hleads n hn] at hshows
      exact Bool.false_ne_true hshows
    rw [impact_measures, impact_calculatedColumns]
    exact ⟨hnone .measure, hnone .column⟩

/-- The users of the columns are those of their impacts exactly when the formulas that
are kept name what the formulas lead to. -/
theorem columnUsage_agrees_iff :
    (∀ col ∈ c.columns, ∀ kind,
        columnUsers c index kind col = (build c index).dependents kind col.key) ↔
      (∀ f ∈ OwnedFormula.ofCatalog c index, ∀ col ∈ c.columns,
          f.LeadsTo c col.key → kindAt c f.key = f.kind
            ∧ ∃ last, OwnedFormula.lastWithKey? c index f.key = some last
              ∧ last.Names col.table col.name)
        ∧ ∀ key last, OwnedFormula.lastWithKey? c index key = some last → ∀ col ∈ c.columns,
          last.Names col.table col.name → ∃ f ∈ OwnedFormula.ofCatalog c index,
            f.key = key ∧ f.kind = kindAt c key
              ∧ f.LeadsTo c col.key := by
  constructor
  · intro h
    constructor
    · intro f hf col hcol hleads
      have hsame := (columnUsers_eq_dependents_iff hcol).mp (h col hcol f.kind) f.key
      exact mem_columnUsers.mp (hsame.mpr ⟨f, hf, rfl, rfl, hleads⟩)
    · intro key last hlast col hcol hnames
      have hsame := (columnUsers_eq_dependents_iff hcol).mp (h col hcol (kindAt c key)) key
      exact hsame.mp (mem_columnUsers.mpr ⟨rfl, last, hlast, hnames⟩)
  · rintro ⟨hnamed, hled⟩ col hcol kind
    refine (columnUsers_eq_dependents_iff hcol).mpr fun key => ?_
    rw [mem_columnUsers]
    constructor
    · rintro ⟨rfl, last, hlast, hnames⟩
      exact hled key last hlast col hcol hnames
    · rintro ⟨f, hf, rfl, rfl, hleads⟩
      exact hnamed f hf col hcol hleads

theorem usesKept_of_usageAgrees
    (h : ∀ limits, UsageAgrees c (reported c index { rules with limits } bs)) :
    UsesKept c index rules bs := by
  have hall := h (reported c index rules bs).wideLimits
  have hmeasures := hall.measures
  have hcolumns := hall.columns
  rw [unusedObjects_measures_wide, unusedMeasures_eq_shown] at hmeasures
  rw [unusedObjects_columns_wide, unusedColumns_eq_shown] at hcolumns
  have husers : ∀ col ∈ c.columns, ∀ kind,
      columnUsers c index kind col = (build c index).dependents kind col.key := by
    intro col hcol kind
    have hnode : col.key ∈ (build c index).nodes.keys := mem_nodes_keys_of_column hcol
    obtain ⟨hm, hc⟩ := hall.columnUsage col hcol
    rw [columnUsage_measures, impact_measures] at hm
    rw [columnUsage_calculatedColumns, impact_calculatedColumns] at hc
    cases kind with
    | measure => exact hm
    | column => exact hc
  obtain ⟨hnamed, hled⟩ := columnUsage_agrees_iff.mp husers
  have hused := (shown_unused_iff _ bs).mp hmeasures
  have hused' := (shown_unused_iff _ bs).mp hcolumns
  simp only [showsMeasure_eq_false_iff] at hused
  simp only [showsColumn_eq_false_iff] at hused'
  exact
    { measures := hused
      columns := hused'
      named := hnamed
      led := hled }

theorem usageAgrees_of_usesKept (h : UsesKept c index rules bs) :
    UsageAgrees c (reported c index rules bs) := by
  have hused := h.measures
  have hused' := h.columns
  simp only [← showsMeasure_eq_false_iff] at hused
  simp only [← showsColumn_eq_false_iff] at hused'
  have hmeasures := (shown_unused_iff rules bs).mpr hused
  have hcolumns := (shown_unused_iff rules bs).mpr hused'
  have husers := columnUsage_agrees_iff.mpr ⟨h.named, h.led⟩
  exact
    { measures := fun r hr => hmeasures r
        (unusedMeasures_eq_shown c index rules bs ▸ List.mem_of_mem_take hr)
      columns := fun r hr => hcolumns r
        (unusedColumns_eq_shown c index rules bs ▸ List.mem_of_mem_take hr)
      columnUsage := fun col hcol => by
        have hnode : col.key ∈ (build c index).nodes.keys := mem_nodes_keys_of_column hcol
        rw [columnUsage_measures, impact_measures, columnUsage_calculatedColumns,
          impact_calculatedColumns]
        exact ⟨husers col hcol .measure, husers col hcol .column⟩ }

theorem UsesKept.withLimits (h : UsesKept c index rules bs)
    (limits : OutputLimits) :
    UsesKept c index { rules with limits } bs :=
  ⟨h.measures, h.columns, h.named, h.led⟩

/-- Under all limits the three answers agree exactly when the references kept for the
owners of formulas say what all formulas say. -/
theorem usageAgrees_iff_usesKept (c : Catalog) (index : Index) (rules : UsageRules)
    (bs : List Binding) :
    (∀ limits, UsageAgrees c (reported c index { rules with limits } bs)) ↔
      UsesKept c index rules bs := by
  constructor
  · exact usesKept_of_usageAgrees
  · intro h limits
    exact usageAgrees_of_usesKept (h.withLimits limits)

/-- A table that is declared twice with one measure, each time with another formula. -/
def redeclaredMeasure : Catalog where
  tables :=
    [{ name := "T"
       columns := [{ table := "T", name := "A" }, { table := "T", name := "B" }]
       measures :=
        [{ table := "T", name := "M", expression := "[A]" },
         { table := "T", name := "M", expression := "[B]" }] }]

theorem not_usageAgrees_redeclaredMeasure :
    ¬ UsageAgrees redeclaredMeasure (ofCatalog redeclaredMeasure)
      ∧ ((ofCatalog redeclaredMeasure).columnUsage "T" "A").measures = []
      ∧ ((ofCatalog redeclaredMeasure).impact "T[A]").measures = ["T[M]"] := by
  have himpact : ((ofCatalog redeclaredMeasure).impact "T[A]").measures = ["T[M]"] := by
    decide +kernel
  have hlisted : ⟨"T", "A"⟩ ∈ (ofCatalog redeclaredMeasure).unusedObjects.columns := by
    decide +kernel
  refine ⟨fun h => ?_, by decide +kernel, himpact⟩
  have hnone := (h.columns ⟨"T", "A"⟩ hlisted).1
  have hkey : (⟨"T", "A"⟩ : ObjectRef).key = "T[A]" := by decide
  rw [hkey, himpact] at hnone
  exact List.cons_ne_nil _ _ hnone

end Graph

end Tabular.Dependency
