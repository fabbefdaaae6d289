import Mathlib.Data.List.Nodup
import Tabular.Proofs.Dependency.Formulas

/-!
# Unused objects are those that nothing refers to

When the keys of a catalog tell its objects apart, the graph loses nothing: under each
key stands the object that has it, and the references kept under the key of an owner
are those of its only formula. The lists of unused objects are then cut out of the
catalog itself, by what its formulas, its relationships and the counted bindings of
visuals refer to, and no map of the graph is left in the answer.

Formulas of blanks are left out of the graph and not of the catalog; it makes no
difference, since they refer to nothing.
-/

namespace Tabular.Dependency

open Ordered Formula Text

/-- Whether no two measures or columns of a catalog share a key. -/
def KeysApart (c : Catalog) : Prop :=
  (c.measures.map (·.key) ++ c.columns.map (·.key)).Nodup

instance (c : Catalog) : Decidable (KeysApart c) := by
  unfold KeysApart
  infer_instance

/-- The objects of one kind among references. -/
def referencesOfKind (r : References) : ObjectKind → SortedSet ObjectRef
  | .measure => r.measures
  | .column => r.columns

/-- The formulas of a catalog with their owners. -/
def writtenFormulas (c : Catalog) : List (ObjectRef × String) :=
  c.measures.map (fun m => (m.ref, m.expression))
    ++ c.columns.filterMap fun col => col.expression.map fun e => (col.ref, e)

/-- What the formulas of a catalog refer to, each without its own owner. -/
def madeReferences (c : Catalog) (index : Index) (kind : ObjectKind) : List ObjectRef :=
  (writtenFormulas c).flatMap fun f =>
    (referencesOfKind (resolve index f.2) kind).toList.filter fun r =>
      r.normalized != f.1.normalized

/-- What the bindings that count are of. -/
def countedObjects (rules : UsageRules) (bs : List Binding) (kind : ObjectKind) :
    List ObjectRef :=
  (bs.filter fun b => (!b.viaFilter || rules.includeFilters) && b.kind == kind).map (·.object)

/-- The ends of the relationships of a catalog. -/
def relationshipEnds (c : Catalog) : List ObjectRef :=
  c.relationships.flatMap fun r => [r.source, r.target]

/-- Whether an object is one that a graph takes for used: the last formula with some key
refers to it, or a relationship ends at it, or a counted binding is of it. -/
def Uses (c : Catalog) (index : Index) (rules : UsageRules) (bs : List Binding)
    (kind : ObjectKind) (r : ObjectRef) : Prop :=
  (∃ key f, OwnedFormula.lastWithKey? c index key = some f
      ∧ r ∈ referencesOfKind f.references kind)
    ∨ (kind = .column ∧ r ∈ relationshipEnds c) ∨ r ∈ countedObjects rules bs kind

/-- Whether an object is used, in any case. -/
def IsUsed (c : Catalog) (index : Index) (rules : UsageRules) (bs : List Binding)
    (kind : ObjectKind) (o : ObjectRef) : Prop :=
  ∃ r, Uses c index rules bs kind r ∧ r.normalized = o.normalized

/-- Whether the rules leave a column out by its own marks and name. -/
def leavesOut (rules : ColumnRules) (col : Column) : Bool :=
  rules.excludeHidden && col.isHidden || rules.excludeKey && col.isKey
    || rules.isReserved col.name

/-- The measures that no formula and no counted binding refers to. -/
def unreferencedMeasures (c : Catalog) (rules : UsageRules) (bs : List Binding) :
    List ObjectRef :=
  let met := madeReferences c (.ofCatalog c) .measure ++ countedObjects rules bs .measure
  (c.measures.filter fun m => m.ref.normalized ∉ met.map (·.normalized)).map (·.ref)

/-- The columns that a formula, a relationship or a counted binding refers to. -/
def metColumns (c : Catalog) (rules : UsageRules) (bs : List Binding) : List ObjectRef :=
  madeReferences c (.ofCatalog c) .column ++ relationshipEnds c
    ++ countedObjects rules bs .column

/-- The columns that are not left out and that nothing refers to. -/
def unreferencedColumns (c : Catalog) (rules : UsageRules) (bs : List Binding) :
    List ObjectRef :=
  (c.columns.filter fun col => !leavesOut rules.columns col
    && decide (col.ref.normalized ∉ (metColumns c rules bs).map (·.normalized))).map (·.ref)

/-- The tables that own no measure and have no column that something refers to. -/
def unreferencedTables (c : Catalog) (rules : UsageRules) (bs : List Binding) :
    List String :=
  (c.tables.filter fun t => fold t.name ∉ c.measures.map (fun m => fold m.table)
    ++ (metColumns c rules bs).map fun r => fold r.table).map (·.name)

variable {c : Catalog} {index : Index}

theorem map_key_ofCatalog (c : Catalog) :
    (Node.ofCatalog c).map (·.key) = c.measures.map (·.key) ++ c.columns.map (·.key) := by
  rw [Node.ofCatalog, List.map_append, List.map_map, List.map_map]
  rfl

/-- Under the key of an object stands the object. -/
theorem firstWithKey?_of_mem (h : KeysApart c) {n : Node} (hn : n ∈ Node.ofCatalog c) :
    firstWithKey? c n.key = some n := by
  rw [KeysApart, ← map_key_ofCatalog] at h
  obtain ⟨m, hm⟩ := exists_firstWithKey? hn
  obtain ⟨hmem, hkey⟩ := mem_ofCatalog_of_firstWithKey? hm
  rw [hm, List.inj_on_of_nodup_map h hmem hn hkey]

theorem map_filterMap_sublist {α β γ : Type} {f : α → Option β} {key : β → γ}
    {key' : α → γ} (h : ∀ x y, f x = some y → key y = key' x) (xs : List α) :
    ((xs.filterMap f).map key).Sublist (xs.map key') := by
  induction xs with
  | nil => exact List.Sublist.slnil
  | cons x rest ih =>
      cases hx : f x with
      | none =>
          rw [List.filterMap_cons_none hx]
          exact ih.cons _
      | some y =>
          rw [List.filterMap_cons_some hx, List.map_cons, List.map_cons, h x y hx]
          exact ih.cons_cons _

/-- The owners of formulas are objects of the catalog, in order. -/
theorem map_key_formulas_sublist (c : Catalog) (index : Index) :
    ((OwnedFormula.ofCatalog c index).map (·.key)).Sublist
      (c.measures.map (·.key) ++ c.columns.map (·.key)) := by
  rw [OwnedFormula.ofCatalog, List.map_append]
  refine List.Sublist.append (map_filterMap_sublist ?_ _) (map_filterMap_sublist ?_ _)
  · intro m f hf
    obtain ⟨-, rfl⟩ := OwnedFormula.of?_eq_some_iff.mp hf
    rfl
  · intro col f hf
    obtain ⟨e, -, hf⟩ := Option.bind_eq_some_iff.mp hf
    obtain ⟨-, rfl⟩ := OwnedFormula.of?_eq_some_iff.mp hf
    rfl

/-- An owner has one formula. -/
theorem lastWithKey?_of_mem (h : KeysApart c) {f : OwnedFormula}
    (hf : f ∈ OwnedFormula.ofCatalog c index) :
    OwnedFormula.lastWithKey? c index f.key = some f := by
  obtain ⟨g, hg⟩ := OwnedFormula.exists_lastWithKey? hf
  obtain ⟨hmem, hkey⟩ := OwnedFormula.mem_ofCatalog_of_lastWithKey? hg
  have hnodup : ((OwnedFormula.ofCatalog c index).map (·.key)).Nodup :=
    (map_key_formulas_sublist c index).nodup h
  rw [hg, List.inj_on_of_nodup_map hnodup hmem hf hkey]

theorem mem_withoutOwner {owner r : ObjectRef} {refs : References} {kind : ObjectKind} :
    r ∈ referencesOfKind (OwnedFormula.withoutOwner owner refs) kind ↔
      r ∈ referencesOfKind refs kind ∧ r.normalized ≠ owner.normalized := by
  cases kind with
  | measure => simp [referencesOfKind, OwnedFormula.withoutOwner, SortedSet.mem_filter]
  | column => simp [referencesOfKind, OwnedFormula.withoutOwner, SortedSet.mem_filter]

theorem mem_writtenFormulas {owner : ObjectRef} {e : String} :
    (owner, e) ∈ writtenFormulas c ↔
      (∃ m ∈ c.measures, m.ref = owner ∧ m.expression = e)
        ∨ ∃ col ∈ c.columns, col.expression = some e ∧ col.ref = owner := by
  rw [writtenFormulas, List.mem_append, List.mem_map, List.mem_filterMap]
  refine or_congr ?_ ?_
  · simp [Prod.ext_iff]
  · simp [Option.map_eq_some_iff, Prod.ext_iff, and_comm]

/-- What the formulas of the graph refer to is what those of the catalog refer to. -/
theorem mem_madeReferences {kind : ObjectKind} {r : ObjectRef} :
    r ∈ madeReferences c index kind ↔
      ∃ f ∈ OwnedFormula.ofCatalog c index, r ∈ referencesOfKind f.references kind := by
  have hwritten : r ∈ madeReferences c index kind ↔ ∃ owner e,
      (owner, e) ∈ writtenFormulas c ∧ r ∈ referencesOfKind (resolve index e) kind
        ∧ r.normalized ≠ owner.normalized := by
    simp [madeReferences, List.mem_flatMap, List.mem_filter]
  rw [hwritten]
  constructor
  · rintro ⟨owner, e, hw, hr⟩
    have hblank : blank e = false := by
      by_contra hb
      rw [Bool.not_eq_false] at hb
      rw [resolve_of_blank hb] at hr
      cases kind with
      | measure => exact SortedSet.not_mem_empty hr.1
      | column => exact SortedSet.not_mem_empty hr.1
    rcases mem_writtenFormulas.mp hw with ⟨m, hm, rfl, rfl⟩ | ⟨col, hcol, he, rfl⟩
    · exact ⟨_, OwnedFormula.mem_ofCatalog.mpr
        (Or.inl ⟨m, hm, OwnedFormula.of?_eq_some_iff.mpr ⟨hblank, rfl⟩⟩),
        mem_withoutOwner.mpr hr⟩
    · exact ⟨_, OwnedFormula.mem_ofCatalog.mpr
        (Or.inr ⟨col, hcol, e, he, OwnedFormula.of?_eq_some_iff.mpr ⟨hblank, rfl⟩⟩),
        mem_withoutOwner.mpr hr⟩
  · rintro ⟨f, hf, hr⟩
    rcases OwnedFormula.mem_ofCatalog.mp hf with ⟨m, hm, hf⟩ | ⟨col, hcol, e, he, hf⟩
    · obtain ⟨-, rfl⟩ := OwnedFormula.of?_eq_some_iff.mp hf
      exact ⟨m.ref, m.expression, mem_writtenFormulas.mpr (Or.inl ⟨m, hm, rfl, rfl⟩),
        mem_withoutOwner.mp hr⟩
    · obtain ⟨-, rfl⟩ := OwnedFormula.of?_eq_some_iff.mp hf
      exact ⟨col.ref, e, mem_writtenFormulas.mpr (Or.inr ⟨col, hcol, he, rfl⟩),
        mem_withoutOwner.mp hr⟩

namespace Graph

variable {rules : UsageRules} {bs : List Binding}

theorem nodesOf_reported (keys : List Key) :
    (reported c index rules bs).nodesOf keys = keys.filterMap (firstWithKey? c) :=
  List.filterMap_congr fun key _ => get?_nodes_build c index key

theorem nodesOf_measureKeys (h : KeysApart c) :
    (reported c index rules bs).nodesOf (reported c index rules bs).measureKeys =
      c.measures.map Node.ofMeasure := by
  have hkeys : (reported c index rules bs).measureKeys = c.measures.map (·.key) := rfl
  rw [nodesOf_reported, hkeys, List.filterMap_map, ← List.filterMap_eq_map]
  refine List.filterMap_congr fun m hm => ?_
  rw [Function.comp_apply, Function.comp_apply, ← Node.key_ofMeasure]
  exact firstWithKey?_of_mem h (ofMeasure_mem_ofCatalog hm)

theorem nodesOf_columnKeys (h : KeysApart c) :
    (reported c index rules bs).nodesOf (reported c index rules bs).columnKeys =
      c.columns.map Node.ofColumn := by
  have hkeys : (reported c index rules bs).columnKeys = c.columns.map (·.key) := rfl
  rw [nodesOf_reported, hkeys, List.filterMap_map, ← List.filterMap_eq_map]
  refine List.filterMap_congr fun col hcol => ?_
  rw [Function.comp_apply, Function.comp_apply, ← Node.key_ofColumn]
  exact firstWithKey?_of_mem h (ofColumn_mem_ofCatalog hcol)

theorem exists_allReferences_iff {kind : ObjectKind} {r : ObjectRef} :
    (∃ refs ∈ (build c index).allReferences, r ∈ referencesOfKind refs kind) ↔
      ∃ key f, OwnedFormula.lastWithKey? c index key = some f
        ∧ r ∈ referencesOfKind f.references kind := by
  constructor
  · rintro ⟨refs, hrefs, hr⟩
    obtain ⟨key, f, hf, rfl⟩ := mem_allReferences_build.mp hrefs
    exact ⟨key, f, hf, hr⟩
  · rintro ⟨key, f, hf, hr⟩
    exact ⟨f.references, mem_allReferences_build.mpr ⟨key, f, hf, rfl⟩, hr⟩

theorem exists_lastWithKey?_iff (h : KeysApart c) {kind : ObjectKind} {r : ObjectRef} :
    (∃ key f, OwnedFormula.lastWithKey? c index key = some f
        ∧ r ∈ referencesOfKind f.references kind) ↔ r ∈ madeReferences c index kind := by
  rw [mem_madeReferences]
  constructor
  · rintro ⟨key, f, hf, hr⟩
    exact ⟨f, (OwnedFormula.mem_ofCatalog_of_lastWithKey? hf).1, hr⟩
  · rintro ⟨f, hf, hr⟩
    exact ⟨f.key, f, lastWithKey?_of_mem h hf, hr⟩

theorem boundObjects_withBindings (g : Graph) (bs : List Binding) (kind : ObjectKind) :
    (g.withBindings bs).boundObjects kind =
      g.boundObjects kind ++ countedObjects g.rules bs kind := by
  have hcounted : ((bs.filter fun b => g.rules.includeFilters || !b.viaFilter).filter
      (·.kind == kind)).map (·.object) = countedObjects g.rules bs kind := by
    rw [List.filter_filter, countedObjects]
    refine congrArg _ (List.filter_congr fun b _ => ?_)
    rw [Bool.and_comm, Bool.or_comm]
  rw [boundObjects, boundObjects, countedBindings, countedBindings, ← hcounted, ← List.map_append,
    ← List.filter_append, ← List.filter_append]
  rfl

theorem boundObjects_reported (kind : ObjectKind) :
    (reported c index rules bs).boundObjects kind = countedObjects rules bs kind :=
  boundObjects_withBindings ((build c index).withRules rules) bs kind

theorem mem_usedMeasures_iff {r : ObjectRef} :
    r ∈ (reported c index rules bs).usedMeasures ↔ Uses c index rules bs .measure r := by
  rw [usedMeasures, boundObjects_reported, List.mem_append, List.mem_flatMap, Uses,
    ← exists_allReferences_iff]
  refine or_congr Iff.rfl ?_
  rw [or_iff_right fun h => by cases h.1]

theorem mem_usedColumns_iff {r : ObjectRef} :
    r ∈ (reported c index rules bs).usedColumns ↔ Uses c index rules bs .column r := by
  rw [usedColumns, boundObjects_reported, List.mem_append, List.mem_append,
    List.mem_flatMap, Uses, ← exists_allReferences_iff, or_assoc]
  refine or_congr Iff.rfl (or_congr ?_ Iff.rfl)
  exact ⟨fun h => ⟨rfl, h⟩, fun h => h.2⟩

theorem mem_usedMeasures_reported (h : KeysApart c) {r : ObjectRef} :
    r ∈ (reported c index rules bs).usedMeasures ↔
      r ∈ madeReferences c index .measure ++ countedObjects rules bs .measure := by
  rw [mem_usedMeasures_iff, Uses, exists_lastWithKey?_iff h, List.mem_append]
  refine or_congr Iff.rfl ?_
  rw [or_iff_right fun h => by cases h.1]

theorem mem_usedColumns_reported (h : KeysApart c) {r : ObjectRef} :
    r ∈ (reported c index rules bs).usedColumns ↔ r ∈ madeReferences c index .column
      ++ relationshipEnds c ++ countedObjects rules bs .column := by
  rw [mem_usedColumns_iff, Uses, exists_lastWithKey?_iff h, List.mem_append, List.mem_append,
    or_assoc]
  refine or_congr Iff.rfl (or_congr ?_ Iff.rfl)
  exact ⟨fun h => h.2, fun h => ⟨rfl, h⟩⟩

theorem mem_ofList_map_iff {α : Type} {xs ys : List α} (h : ∀ x, x ∈ xs ↔ x ∈ ys)
    (f : α → String) (s : String) : s ∈ SortedSet.ofList (xs.map f) ↔ s ∈ ys.map f := by
  rw [SortedSet.mem_ofList, List.mem_map, List.mem_map]
  exact exists_congr fun x => and_congr_left fun _ => h x

theorem unusedMeasures_reported (h : KeysApart c) :
    (reported c (.ofCatalog c) rules bs).unusedMeasures = unreferencedMeasures c rules bs := by
  rw [unusedMeasures, nodesOf_measureKeys h, unreferencedMeasures]
  rw [List.filter_map, List.map_map]
  refine congrArg _ (List.filter_congr fun m _ => ?_)
  rw [Function.comp_apply, decide_eq_decide, not_iff_not]
  exact mem_ofList_map_iff (fun r => mem_usedMeasures_reported h) _ m.ref.normalized

theorem unusedColumns_reported (h : KeysApart c) :
    (reported c (.ofCatalog c) rules bs).unusedColumns = unreferencedColumns c rules bs := by
  rw [unusedColumns, nodesOf_columnKeys h, unreferencedColumns]
  rw [List.filter_map, List.map_map]
  refine congrArg _ (List.filter_congr fun col _ => ?_)
  rw [Function.comp_apply]
  refine congrArg₂ (· && ·) rfl ?_
  rw [decide_eq_decide, not_iff_not]
  exact mem_ofList_map_iff (fun r => mem_usedColumns_reported h) _ col.ref.normalized

theorem unusedTables_reported (h : KeysApart c) :
    (reported c (.ofCatalog c) rules bs).unusedTables = unreferencedTables c rules bs := by
  have htables : (reported c (.ofCatalog c) rules bs).tables = c.tables.map (·.name) := rfl
  rw [unusedTables, htables, unreferencedTables, usedTables, nodesOf_measureKeys h]
  rw [List.filter_map]
  refine congrArg _ (List.filter_congr fun t _ => ?_)
  rw [Function.comp_apply, decide_eq_decide, not_iff_not, SortedSet.mem_ofList,
    List.map_append, List.mem_append, List.mem_append, List.map_map, List.map_map,
    List.map_map]
  refine or_congr Iff.rfl ?_
  rw [List.mem_map, List.mem_map]
  exact exists_congr fun r => and_congr_left fun _ => mem_usedColumns_reported h

/-- With keys that tell its objects apart, a catalog has for unused measures, columns
and tables those that no formula, relationship or counted binding refers to, in its own
order; the answer shows as many of them as the limits allow, and counts them all. -/
theorem unusedObjects_eq_unreferenced (c : Catalog) (rules : UsageRules)
    (bs : List Binding) (h : KeysApart c) :
    let g := ((ofCatalog c).withRules rules).withBindings bs
    g.unusedMeasures = unreferencedMeasures c rules bs
      ∧ g.unusedColumns = unreferencedColumns c rules bs
      ∧ g.unusedTables = unreferencedTables c rules bs
      ∧ g.unusedObjects =
        { measures := (unreferencedMeasures c rules bs).take rules.limits.unusedMeasures
          columns := (unreferencedColumns c rules bs).take rules.limits.unusedColumns
          tables := (unreferencedTables c rules bs).take rules.limits.unusedTables
          totalMeasures := (unreferencedMeasures c rules bs).length
          totalColumns := (unreferencedColumns c rules bs).length
          totalTables := (unreferencedTables c rules bs).length } := by
  intro g
  have hm : g.unusedMeasures = unreferencedMeasures c rules bs := unusedMeasures_reported h
  have hc : g.unusedColumns = unreferencedColumns c rules bs := unusedColumns_reported h
  have ht : g.unusedTables = unreferencedTables c rules bs := unusedTables_reported h
  refine ⟨hm, hc, ht, ?_⟩
  rw [unusedObjects, hm, hc, ht]
  rfl

/-- A catalog of three tables: a formula reads one column, and a relationship ends at
another and at a column of a second table. -/
def salesModel : Catalog where
  tables :=
    [{ name := "Sales"
       columns :=
        [{ table := "Sales", name := "Amount" }, { table := "Sales", name := "Quantity" },
         { table := "Sales", name := "Note", isHidden := true },
         { table := "Sales", name := "Day" }]
       measures :=
        [{ table := "Sales", name := "Total", expression := "SUM(Sales[Amount])" },
         { table := "Sales", name := "Half", expression := "[Total] / 2" }] },
     { name := "Calendar", columns := [{ table := "Calendar", name := "Day" }] },
     { name := "Spare", columns := [{ table := "Spare", name := "Id" }] }]
  relationships :=
    [{ name := "days", fromTable := "Sales", fromColumn := "Day", toTable := "Calendar",
       toColumn := "Day" }]

/-- A filter of a visual over a column of sales. -/
def filterOnQuantity : Binding where
  visualId := "v1"
  visualType := "card"
  page := "Overview"
  object := ⟨"Sales", "Quantity"⟩
  kind := .column
  viaFilter := true

/-- Rules that count no filters and show one column. -/
def briefRules : UsageRules where
  limits := { unusedColumns := 1 }
  includeFilters := false

theorem unusedObjects_salesModel :
    KeysApart salesModel
      ∧ (((ofCatalog salesModel).withRules briefRules).withBindings
          [filterOnQuantity]).unusedObjects =
        { measures := [⟨"Sales", "Half"⟩]
          columns := [⟨"Sales", "Quantity"⟩]
          tables := ["Spare"]
          totalMeasures := 1
          totalColumns := 2
          totalTables := 1 } := by
  have h : KeysApart salesModel := by decide
  have hm : unreferencedMeasures salesModel briefRules [filterOnQuantity] =
      [⟨"Sales", "Half"⟩] := by decide +kernel
  have hc : unreferencedColumns salesModel briefRules [filterOnQuantity] =
      [⟨"Sales", "Quantity"⟩, ⟨"Spare", "Id"⟩] := by decide +kernel
  have ht : unreferencedTables salesModel briefRules [filterOnQuantity] = ["Spare"] := by
    decide +kernel
  obtain ⟨-, -, -, hall⟩ :=
    unusedObjects_eq_unreferenced salesModel briefRules [filterOnQuantity] h
  rw [hm, hc, ht] at hall
  exact ⟨h, hall⟩

end Graph

end Tabular.Dependency
