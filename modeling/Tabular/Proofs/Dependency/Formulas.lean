import Tabular.Dependency.Impact
import Tabular.Proofs.Dependency.Nodes
import Tabular.Proofs.Formula.Blank

/-!
# The formulas a graph is made of

A graph keeps what formulas refer to twice. Under the key of the owner it keeps the
references of one formula, the last one with that key; as edges it keeps those of all
formulas. The two records agree on a key that has one formula.

The questions about uses read one record or the other: unused objects and the use of a
column read the references, the direct dependents of an object read the edges.
-/

namespace Tabular.Dependency

open Ordered Formula Text

namespace OwnedFormula

/-- The last formula of a catalog whose owner has a key. -/
def lastWithKey? (c : Catalog) (index : Index) (key : Key) : Option OwnedFormula :=
  (ofCatalog c index).reverse.find? fun f => f.key = key

/-- Where a reference to a column leads: to the first object with its lowercase key, or
else to its own key. -/
def columnTarget (c : Catalog) (r : ObjectRef) : Key :=
  ((firstNamed? c r.normalized).map (·.key)).getD r.key

/-- Whether a reference of a formula leads to a key. -/
def LeadsTo (c : Catalog) (f : OwnedFormula) (key : Key) : Prop :=
  (∃ r ∈ f.references.measures, r.key = key)
    ∨ ∃ r ∈ f.references.columns, columnTarget c r = key

/-- Whether a formula refers to a column with a table and a name, in any case. -/
def Names (f : OwnedFormula) (table column : String) : Prop :=
  ∃ r ∈ f.references.columns, r.isNamed table column = true

variable {c : Catalog} {index : Index}

theorem of?_eq_some_iff {owner : ObjectRef} {kind : ObjectKind} {formula : String}
    {f : OwnedFormula} :
    of? index owner kind formula = some f ↔
      blank formula = false ∧ f = ⟨owner, kind, withoutOwner owner (resolve index formula)⟩ := by
  rw [of?]
  cases h : blank formula with
  | true => simp
  | false => simp [eq_comm]

theorem mem_ofCatalog {f : OwnedFormula} :
    f ∈ ofCatalog c index ↔
      (∃ m ∈ c.measures, of? index m.ref .measure m.expression = some f)
        ∨ ∃ col ∈ c.columns, ∃ e, col.expression = some e
          ∧ of? index col.ref .column e = some f := by
  rw [ofCatalog, List.mem_append, List.mem_filterMap, List.mem_filterMap]
  refine or_congr_right (exists_congr fun col => and_congr_right fun _ => ?_)
  rw [Option.bind_eq_some_iff]

/-- The owner of a formula is an object of the catalog. -/
theorem exists_owner {f : OwnedFormula} (h : f ∈ ofCatalog c index) :
    ∃ n ∈ Node.ofCatalog c, n.key = f.key ∧ n.object = f.owner ∧ n.kind = f.kind := by
  rcases mem_ofCatalog.mp h with ⟨m, hm, hf⟩ | ⟨col, hcol, e, -, hf⟩
  · obtain ⟨-, rfl⟩ := of?_eq_some_iff.mp hf
    exact ⟨Node.ofMeasure m, ofMeasure_mem_ofCatalog hm, rfl, rfl, rfl⟩
  · obtain ⟨-, rfl⟩ := of?_eq_some_iff.mp hf
    exact ⟨Node.ofColumn col, ofColumn_mem_ofCatalog hcol, rfl, rfl, rfl⟩

theorem mem_ofCatalog_of_lastWithKey? {key : Key} {f : OwnedFormula}
    (h : lastWithKey? c index key = some f) : f ∈ ofCatalog c index ∧ f.key = key := by
  have hkey := List.find?_some h
  rw [decide_eq_true_eq] at hkey
  exact ⟨List.mem_reverse.mp (List.mem_of_find?_eq_some h), hkey⟩

theorem exists_lastWithKey? {f : OwnedFormula} (h : f ∈ ofCatalog c index) :
    ∃ g, lastWithKey? c index f.key = some g := by
  rw [← Option.isSome_iff_exists, lastWithKey?, List.find?_isSome]
  exact ⟨f, List.mem_reverse.mpr h, decide_eq_true rfl⟩

theorem edge_owner {lookup : SortedMap String Key} {f : OwnedFormula} {e : Edge}
    (h : e ∈ f.edges lookup) : e.owner = f.key ∧ e.ownerKind = f.kind := by
  rw [edges, List.mem_append, List.mem_map, List.mem_map] at h
  rcases h with ⟨m, -, rfl⟩ | ⟨r, -, rfl⟩
  · exact ⟨rfl, rfl⟩
  · exact ⟨rfl, rfl⟩

end OwnedFormula

namespace Graph

variable {c : Catalog} {index : Index}

theorem get?_references_build (c : Catalog) (index : Index) (key : Key) :
    (build c index).references.get? key =
      (OwnedFormula.lastWithKey? c index key).map (·.references) := by
  have h := SortedMap.get?_foldl_insert OwnedFormula.key (·.references)
    (OwnedFormula.ofCatalog c index) ∅ key
  rw [SortedMap.get?_empty, Option.or_none] at h
  exact h

theorem mem_edges_build {e : Edge} :
    e ∈ (build c index).edges ↔ ∃ f ∈ OwnedFormula.ofCatalog c index,
      e ∈ f.edges (build c index).lookup := List.mem_flatMap

theorem mem_references_build {key : Key} {r : References} :
    (key, r) ∈ (build c index).references.toList ↔
      ∃ f, OwnedFormula.lastWithKey? c index key = some f ∧ f.references = r := by
  rw [SortedMap.mem_toList_iff, get?_references_build, Option.map_eq_some_iff]

theorem mem_allReferences_build {r : References} :
    r ∈ (build c index).allReferences ↔
      ∃ key f, OwnedFormula.lastWithKey? c index key = some f ∧ f.references = r := by
  rw [allReferences, List.mem_map]
  constructor
  · rintro ⟨⟨key, r'⟩, h, rfl⟩
    exact ⟨key, mem_references_build.mp h⟩
  · rintro ⟨key, h⟩
    exact ⟨(key, r), mem_references_build.mpr h, rfl⟩

/-- A column is used by the owners whose last formula names it. -/
theorem mem_columnOwners_build {table column : String} {key : Key} :
    key ∈ (build c index).columnOwners table column ↔
      ∃ f, OwnedFormula.lastWithKey? c index key = some f ∧ f.Names table column := by
  rw [columnOwners, List.mem_map]
  constructor
  · rintro ⟨⟨key', r⟩, h, rfl⟩
    rw [List.mem_filter, List.any_eq_true] at h
    obtain ⟨hmem, hnames⟩ := h
    obtain ⟨f, hf, rfl⟩ := mem_references_build.mp hmem
    exact ⟨f, hf, hnames⟩
  · rintro ⟨f, hf, hnames⟩
    refine ⟨(key, f.references), ?_, rfl⟩
    rw [List.mem_filter, List.any_eq_true]
    exact ⟨mem_references_build.mpr ⟨f, hf, rfl⟩, hnames⟩

/-- The edges of a formula lead where its references do. -/
theorem exists_edge_iff {f : OwnedFormula} {key : Key} :
    (∃ e ∈ f.edges (build c index).lookup, e.target = key) ↔ f.LeadsTo c key := by
  have htarget : ∀ r : ObjectRef, ((build c index).lookup.get? r.normalized).getD r.key =
      OwnedFormula.columnTarget c r := by
    intro r
    rw [get?_lookup_build]
    rfl
  rw [OwnedFormula.edges, OwnedFormula.LeadsTo]
  constructor
  · rintro ⟨e, he, rfl⟩
    rw [List.mem_append, List.mem_map, List.mem_map] at he
    rcases he with ⟨r, hr, rfl⟩ | ⟨r, hr, rfl⟩
    · exact Or.inl ⟨r, hr, rfl⟩
    · exact Or.inr ⟨r, hr, (htarget r).symm⟩
  · rintro (⟨r, hr, rfl⟩ | ⟨r, hr, rfl⟩)
    · exact ⟨_, List.mem_append_left _ (List.mem_map_of_mem hr), rfl⟩
    · exact ⟨_, List.mem_append_right _ (List.mem_map_of_mem hr), htarget r⟩

theorem exists_edge_build_iff {owner target : Key} {ownerKind : ObjectKind} :
    (∃ targetKind, ⟨owner, ownerKind, target, targetKind⟩ ∈ (build c index).edges) ↔
      ∃ f ∈ OwnedFormula.ofCatalog c index, f.key = owner ∧ f.kind = ownerKind
        ∧ f.LeadsTo c target := by
  refine ⟨?_, ?_⟩
  · rintro ⟨targetKind, he⟩
    obtain ⟨f, hf, hef⟩ := mem_edges_build.mp he
    obtain ⟨howner, hownerKind⟩ := OwnedFormula.edge_owner hef
    exact ⟨f, hf, howner.symm, hownerKind.symm, exists_edge_iff.mp ⟨_, hef, rfl⟩⟩
  · rintro ⟨f, hf, hkey, hkind, hleads⟩
    obtain ⟨⟨owner', ownerKind', target', targetKind⟩, hef, htarget⟩ :=
      exists_edge_iff.mpr hleads
    obtain ⟨howner, hownerKind⟩ := OwnedFormula.edge_owner hef
    simp only at howner hownerKind htarget
    rw [howner, hownerKind, htarget, hkey, hkind] at hef
    exact ⟨targetKind, mem_edges_build.mpr ⟨f, hf, hef⟩⟩

theorem mem_dependents {g : Graph} {kind : ObjectKind} {key owner : Key} :
    owner ∈ g.dependents kind key ↔
      ∃ targetKind, ⟨owner, kind, g.canonical key, targetKind⟩ ∈ g.edges := by
  rw [dependents, SortedSet.mem_toList, SortedSet.mem_ofList, List.mem_append, mem_owners,
    mem_owners]
  refine ⟨?_, ?_⟩
  · intro h
    rcases h with he | he
    · exact ⟨.measure, he⟩
    · exact ⟨.column, he⟩
  · rintro ⟨targetKind, he⟩
    cases targetKind with
    | measure => exact Or.inl he
    | column => exact Or.inr he

theorem dependents_canonical {g : Graph} (hg : g.Keyed) (kind : ObjectKind) (key : Key) :
    g.dependents kind (g.canonical key) = g.dependents kind key := by
  rw [dependents, canonical_canonical hg]
  rfl

/-- The direct dependents of a node are the owners of all formulas that lead to it. -/
theorem mem_dependents_build {kind : ObjectKind} {key owner : Key}
    (hkey : key ∈ (build c index).nodes.keys) :
    owner ∈ (build c index).dependents kind key ↔
      ∃ f ∈ OwnedFormula.ofCatalog c index, f.key = owner ∧ f.kind = kind
        ∧ f.LeadsTo c key := by
  rw [mem_dependents, canonical_of_mem_keys (keyed_build c index) hkey, exists_edge_build_iff]

end Graph

end Tabular.Dependency
