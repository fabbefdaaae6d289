import Tabular.Proofs.Dependency.Usage
import Tabular.Proofs.Formula.References

/-!
# Catalogs that declare everything once

In a catalog of plain objects, no two of which have one name in any case, a key says
which object is meant and in which spelling. An edge then ends at a column exactly when
the formula names the column, and at a measure only when the formula refers to it; and
an owner has one formula. Nothing is left by which the answers about uses could differ.
-/

namespace Tabular.Dependency

open Ordered Formula Text

/-- The objects of a catalog are plain and differ in more than case. -/
structure DeclaredOnce (c : Catalog) : Prop where
  plain : ∀ n ∈ Node.ofCatalog c, n.object.Plain
  apart : ((Node.ofCatalog c).map (·.object.normalized)).Nodup

instance (c : Catalog) : Decidable (DeclaredOnce c) :=
  decidable_of_iff ((∀ n ∈ Node.ofCatalog c, n.object.Plain)
      ∧ ((Node.ofCatalog c).map (·.object.normalized)).Nodup)
    ⟨fun ⟨hplain, hapart⟩ => ⟨hplain, hapart⟩, fun ⟨hplain, hapart⟩ => ⟨hplain, hapart⟩⟩

variable {c : Catalog}

namespace DeclaredOnce

theorem eq_of_normalized_eq (h : DeclaredOnce c) {n n' : Node} (hn : n ∈ Node.ofCatalog c)
    (hn' : n' ∈ Node.ofCatalog c) (hsame : n.object.normalized = n'.object.normalized) :
    n = n' := List.inj_on_of_nodup_map h.apart hn hn' hsame

theorem eq_of_key_eq (h : DeclaredOnce c) {n n' : Node} (hn : n ∈ Node.ofCatalog c)
    (hn' : n' ∈ Node.ofCatalog c) (hsame : n.key = n'.key) : n = n' := by
  have hobject : n.object = n'.object := ObjectRef.eq_of_key_eq (h.plain n' hn') hsame
  exact h.eq_of_normalized_eq hn hn' (by rw [hobject])

theorem keysApart (h : DeclaredOnce c) : KeysApart c := by
  rw [KeysApart, ← map_key_ofCatalog]
  exact (List.Nodup.of_map _ h.apart).map_on fun n hn n' hn' => h.eq_of_key_eq hn hn'

theorem firstNamed?_of_mem (h : DeclaredOnce c) {n : Node} (hn : n ∈ Node.ofCatalog c) :
    firstNamed? c n.object.normalized = some n := by
  obtain ⟨m, hm⟩ := exists_firstNamed? hn
  obtain ⟨hmem, hsame⟩ := mem_ofCatalog_of_firstNamed? hm
  rw [hm, h.eq_of_normalized_eq hmem hn hsame]

end DeclaredOnce

namespace OwnedFormula

variable {index : Index}

theorem exists_formula {f : OwnedFormula} (h : f ∈ ofCatalog c index) :
    ∃ formula, f.references = withoutOwner f.owner (resolve index formula) := by
  rcases mem_ofCatalog.mp h with ⟨m, -, hf⟩ | ⟨col, -, e, -, hf⟩
  · obtain ⟨-, rfl⟩ := of?_eq_some_iff.mp hf
    exact ⟨m.expression, rfl⟩
  · obtain ⟨-, rfl⟩ := of?_eq_some_iff.mp hf
    exact ⟨e, rfl⟩

/-- A reference to a column leads to the object that it names. -/
theorem columnTarget_eq_iff (h : DeclaredOnce c) {n : Node} (hn : n ∈ Node.ofCatalog c)
    {r : ObjectRef} :
    columnTarget c r = n.key ↔ r.normalized = n.object.normalized := by
  rw [columnTarget]
  constructor
  · cases hfirst : firstNamed? c r.normalized with
    | none =>
        intro hkey
        exact congrArg ObjectRef.normalized (ObjectRef.eq_of_key_eq (h.plain n hn) hkey)
    | some m =>
        intro hkey
        obtain ⟨hm, hsame⟩ := mem_ofCatalog_of_firstNamed? hfirst
        rw [← hsame, h.eq_of_key_eq hm hn hkey]
  · intro hsame
    rw [hsame, h.firstNamed?_of_mem hn]
    rfl

theorem measures_of_mem {f : OwnedFormula} (hf : f ∈ ofCatalog c (.ofCatalog c))
    {r : ObjectRef} (hr : r ∈ f.references.measures) :
    r.table = "" ∨ ∃ m ∈ c.measures, m.ref.normalized = r.normalized := by
  obtain ⟨formula, heq⟩ := exists_formula hf
  rw [heq] at hr
  have hresolved : r ∈ (resolve (.ofCatalog c) formula).measures :=
    (SortedSet.mem_filter.mp hr).1
  refine (References.measures_resolve (Index.holds_ofCatalog c) hresolved).imp_right ?_
  rintro ⟨row, hrow, hsame⟩
  obtain ⟨m, hm, rfl⟩ := List.mem_map.mp hrow
  exact ⟨m, hm, hsame⟩

theorem columns_of_mem (h : DeclaredOnce c) {f : OwnedFormula}
    (hf : f ∈ ofCatalog c (.ofCatalog c)) {r : ObjectRef} (hr : r ∈ f.references.columns)
    {m : Measure} (hm : m ∈ c.measures) : r.normalized ≠ m.ref.normalized := by
  obtain ⟨formula, heq⟩ := exists_formula hf
  rw [heq] at hr
  have hresolved : r ∈ (resolve (.ofCatalog c) formula).columns :=
    (SortedSet.mem_filter.mp hr).1
  have hrow : m.ref ∈ c.measures.map (·.ref) := List.mem_map_of_mem hm
  have hplain : m.ref.Plain := h.plain _ (ofMeasure_mem_ofCatalog hm)
  exact (References.columns_resolve (Index.holds_ofCatalog c) hrow hplain hresolved).symm

/-- A formula that leads to a measure refers to it. -/
theorem mem_measures_of_leadsTo (h : DeclaredOnce c) {f : OwnedFormula}
    (hf : f ∈ ofCatalog c (.ofCatalog c)) {m : Measure} (hm : m ∈ c.measures)
    (hleads : f.LeadsTo c m.key) :
    m.ref ∈ f.references.measures := by
  have hnode := ofMeasure_mem_ofCatalog hm
  rcases hleads with ⟨r, hr, hkey⟩ | ⟨r, hr, hkey⟩
  · have hsame : r = m.ref := ObjectRef.eq_of_key_eq (h.plain _ hnode) hkey
    exact hsame ▸ hr
  · have hsame := (columnTarget_eq_iff h hnode).mp hkey
    exact absurd hsame (columns_of_mem h hf hr hm)

/-- A formula leads to a column when it names it. -/
theorem leadsTo_column_iff (h : DeclaredOnce c) {f : OwnedFormula}
    (hf : f ∈ ofCatalog c (.ofCatalog c)) {col : Column} (hcol : col ∈ c.columns) :
    f.LeadsTo c col.key ↔ f.Names col.table col.name := by
  have hnode := ofColumn_mem_ofCatalog hcol
  have hplain : col.ref.Plain := h.plain _ hnode
  constructor
  · rintro (⟨r, hr, hkey⟩ | ⟨r, hr, hkey⟩)
    · -- a reference to a measure would have the key of the column
      have hsame : r = col.ref := ObjectRef.eq_of_key_eq hplain hkey
      rw [hsame] at hr
      rcases measures_of_mem hf hr with htable | ⟨m, hm, hnormalized⟩
      · exact absurd htable hplain.table_ne
      · have hnodes : Node.ofMeasure m = Node.ofColumn col :=
          h.eq_of_normalized_eq (ofMeasure_mem_ofCatalog hm) hnode hnormalized
        cases congrArg Node.kind hnodes
    · have hsame : r.normalized = col.ref.normalized :=
        (columnTarget_eq_iff h hnode).mp hkey
      have hfold : fold r.table = fold col.ref.table ∧ fold r.name = fold col.ref.name :=
        ObjectRef.fold_eq_of_normalized_eq hplain hsame
      exact ⟨r, hr, ObjectRef.isNamed_iff.mpr hfold⟩
  · rintro ⟨r, hr, hnamed⟩
    have hsame : r.normalized = col.ref.normalized := ObjectRef.normalized_eq_of_isNamed hnamed
    exact Or.inr ⟨r, hr, (columnTarget_eq_iff h hnode).mpr hsame⟩

end OwnedFormula

namespace Graph

variable {rules : UsageRules} {bs : List Binding}

theorem kindAt_owner (h : DeclaredOnce c) {index : Index} {f : OwnedFormula}
    (hf : f ∈ OwnedFormula.ofCatalog c index) : kindAt c f.key = f.kind := by
  obtain ⟨n, hn, hkey, -, hkind⟩ := OwnedFormula.exists_owner hf
  rw [kindAt, ← hkey, firstWithKey?_of_mem h.keysApart hn]
  exact hkind

theorem isUsed_of_mem (h : KeysApart c) {index : Index} {f : OwnedFormula}
    (hf : f ∈ OwnedFormula.ofCatalog c index) {kind : ObjectKind} {r o : ObjectRef}
    (hr : r ∈ referencesOfKind f.references kind) (hsame : r.normalized = o.normalized) :
    IsUsed c index rules bs kind o :=
  ⟨r, Or.inl ⟨f.key, f, lastWithKey?_of_mem h hf, hr⟩, hsame⟩

/-- Where everything is declared once, the references that are kept are all there are. -/
theorem usesKept_of_declaredOnce (h : DeclaredOnce c) :
    UsesKept c (.ofCatalog c) rules bs where
  measures f hf key hkey hleads n hn := by
    obtain ⟨m, hm, rfl⟩ := List.mem_map.mp hkey
    obtain ⟨hmem, hsame⟩ := mem_ofCatalog_of_firstWithKey? hn
    obtain rfl := h.eq_of_key_eq hmem (ofMeasure_mem_ofCatalog hm) hsame
    have hr : m.ref ∈ referencesOfKind f.references .measure :=
      OwnedFormula.mem_measures_of_leadsTo h hf hm hleads
    exact isUsed_of_mem h.keysApart hf hr rfl
  columns f hf key hkey hleads n hn := by
    obtain ⟨col, hcol, rfl⟩ := List.mem_map.mp hkey
    obtain ⟨hmem, hsame⟩ := mem_ofCatalog_of_firstWithKey? hn
    obtain rfl := h.eq_of_key_eq hmem (ofColumn_mem_ofCatalog hcol) hsame
    obtain ⟨r, hr, hnamed⟩ := (OwnedFormula.leadsTo_column_iff h hf hcol).mp hleads
    have hsame : r.normalized = col.ref.normalized := ObjectRef.normalized_eq_of_isNamed hnamed
    exact Or.inr (isUsed_of_mem h.keysApart hf hr hsame)
  named f hf col hcol hleads :=
    ⟨kindAt_owner h hf, f, lastWithKey?_of_mem h.keysApart hf,
      (OwnedFormula.leadsTo_column_iff h hf hcol).mp hleads⟩
  led key last hlast col hcol hnames := by
    obtain ⟨hmem, rfl⟩ := OwnedFormula.mem_ofCatalog_of_lastWithKey? hlast
    exact ⟨last, hmem, rfl, (kindAt_owner h hmem).symm,
      (OwnedFormula.leadsTo_column_iff h hmem hcol).mpr hnames⟩

/-- Where everything is declared once, the three answers about uses agree. -/
theorem usageAgrees_of_declaredOnce (h : DeclaredOnce c) (rules : UsageRules)
    (bs : List Binding) : UsageAgrees c (reported c (.ofCatalog c) rules bs) :=
  usageAgrees_of_usesKept (usesKept_of_declaredOnce h)

example : DeclaredOnce
    { tables :=
        [{ name := "Sales"
           columns := [{ table := "Sales", name := "Amount" }]
           measures := [{ table := "Sales", name := "Total", expression := "[Amount]" }] }] } := by
  decide

end Graph

end Tabular.Dependency
