import Tabular.Proofs.Dependency.Declared
import Tabular.Proofs.Dependency.Lookup
import Tabular.Proofs.Dependency.Reach
import Tabular.Proofs.Formula.Answers

/-!
# Where the references of formulas end

A reference makes one edge. To a column it ends at the node that the lookup has for the
lowercase key of the reference, so that it does not matter how an index spells the column.
To a measure it ends at the key of the reference as the index spells it, and nothing is
looked up.

Once an edge ends at a node, the answers about the users of the node list its owner; only
what lies downstream leaves out the node itself. What is left to ask is whether the end
of an edge is the node that its reference means. In a catalog without bars and brackets it
always is for a declared column, and for a declared measure exactly when the reference is
spelled as the catalog spells it. An index of the catalog itself spells it so; one that is
filled from other rows need not, and then the node does not know of its users.
-/

namespace Tabular.Dependency

open Ordered Formula Text

/-- Whether some object of a catalog has the table and the name of a reference, in any
case. -/
def Declares (c : Catalog) (r : ObjectRef) : Prop :=
  ∃ n ∈ Node.ofCatalog c, n.object.isNamed r.table r.name = true

/-- Whether the node under a key has the table and the name of a reference, in any case. -/
def AnswersFor (c : Catalog) (key : Key) (r : ObjectRef) : Prop :=
  ∃ n, firstWithKey? c key = some n ∧ n.object.isNamed r.table r.name = true

/-- The direct users of one kind that an impact lists. -/
def Impact.users (i : Impact) : ObjectKind → List Key
  | .measure => i.measures
  | .column => i.calculatedColumns

variable {c : Catalog} {index : Index} {r : ObjectRef}

/-! ## What is asked about the end of an edge -/

namespace Graph

variable {g : Graph} {e : Edge}

theorem users_impact (hg : g.Keyed) (key : Key) (kind : ObjectKind) :
    (g.impact key).users kind = g.dependents kind key := by
  cases kind with
  | measure => exact dependents_canonical hg .measure key
  | column => exact dependents_canonical hg .column key

theorem downstream_impact (hg : g.Keyed) (key : Key) :
    (g.impact key).downstream = g.allDependents key := by
  show search g.backward g.edges.length (g.canonical (g.canonical key)) = _
  rw [canonical_canonical hg]
  rfl

/-- An edge ends at a node with the names of a reference, and whoever asks what uses this
node finds the owner of the edge. -/
structure Meets (g : Graph) (e : Edge) (r : ObjectRef) : Prop where
  node : ∃ n, g.nodes.get? e.target = some n ∧ n.key = e.target
    ∧ n.object.isNamed r.table r.name = true
  dependents : e.owner ∈ g.dependents e.ownerKind e.target
  impact : e.owner ∈ (g.impact e.target).users e.ownerKind
  downstream : e.owner ∈ g.allDependents e.target
    ∧ e.owner ∈ (g.impact e.target).downstream

/-- It is enough that the edge leads to such a node, and from another one. -/
theorem meets_iff (hg : g.Keyed) (he : e ∈ g.edges) :
    g.Meets e r ↔ (∃ n, g.nodes.get? e.target = some n
      ∧ n.object.isNamed r.table r.name = true) ∧ e.owner ≠ e.target := by
  refine ⟨?_, ?_⟩
  · intro h
    obtain ⟨n, hn, -, hnamed⟩ := h.node
    have hnode : e.target ∈ g.nodes.keys := SortedMap.mem_keys_iff.mpr ⟨n, hn⟩
    have hdown := h.downstream.1
    rw [allDependents, mem_search_backward, canonical_of_mem_keys hg hnode] at hdown
    exact ⟨⟨n, hn, hnamed⟩, hdown.1⟩
  · rintro ⟨⟨n, hn, hnamed⟩, hne⟩
    have hnode : e.target ∈ g.nodes.keys := SortedMap.mem_keys_iff.mpr ⟨n, hn⟩
    have husers : e.owner ∈ g.dependents e.ownerKind e.target := by
      rw [mem_dependents, canonical_of_mem_keys hg hnode]
      exact ⟨e.targetKind, he⟩
    have hdown : e.owner ∈ g.allDependents e.target := by
      rw [allDependents, mem_search_backward, canonical_of_mem_keys hg hnode]
      exact ⟨hne, .single ⟨e, he, rfl, rfl⟩⟩
    exact ⟨⟨n, hn, hg _ n hn, hnamed⟩, husers, by rwa [users_impact hg],
      hdown, by rwa [downstream_impact hg]⟩

end Graph

/-! ## References to measures -/

/-- A reference to a measure has no table, or the index has it as it is spelled. -/
theorem OwnedFormula.spelled_of_mem {as : List Addition} (h : index.FilledBy as)
    {f : OwnedFormula} (hf : f ∈ ofCatalog c index) (hr : r ∈ f.references.measures) :
    r.table = "" ∨ ∃ owner name, index.measures.get? owner name = some r := by
  obtain ⟨formula, heq⟩ := exists_formula hf
  rw [heq] at hr
  obtain ⟨m, -, hm⟩ := References.mem_measures_resolve.mp (SortedSet.mem_filter.mp hr).1
  rcases References.ofMention_cases index m with
    ⟨table, name, heq⟩ | ⟨table, heq⟩ | ⟨name, heq⟩ | heq
  · rw [heq, References.mem_measures_ofQualified h] at hm
    exact Or.inr ⟨table, name, hm⟩
  · rw [heq] at hm
    exact absurd hm SortedSet.not_mem_empty
  · rw [heq, References.mem_measures_ofBare h] at hm
    rcases hm with ⟨-, -, owner, -, hfound⟩ | ⟨-, -, rfl⟩
    · exact Or.inr ⟨owner, name, hfound⟩
    · exact Or.inl rfl
  · rw [heq] at hm
    exact absurd hm SortedSet.not_mem_empty

/-- Under the index of its catalog, a reference to a measure is spelled as the measure. -/
theorem OwnedFormula.exists_measure_of_mem (h : Orderly c.tables) {f : OwnedFormula}
    (hf : f ∈ ofCatalog c (.ofCatalog c)) (hr : r ∈ f.references.measures) :
    r.table = "" ∨ ∃ m ∈ c.measures, m.ref = r := by
  refine (spelled_of_mem (Index.filledBy_ofCatalog c) hf hr).imp_right ?_
  rintro ⟨owner, name, hfound⟩
  rw [Index.measures_ofCatalog h] at hfound
  exact List.mem_map.mp (List.mem_filter.mp (List.mem_of_find?_eq_some hfound)).1

/-! ## The edge of a reference -/

namespace OwnedFormula

/-- Where a reference to an object of some kind leads. -/
def targetOf (c : Catalog) (r : ObjectRef) : ObjectKind → Key
  | .measure => r.key
  | .column => columnTarget c r

/-- The edge that a formula makes of a reference to an object of some kind. -/
def edgeTo (c : Catalog) (f : OwnedFormula) (r : ObjectRef) (kind : ObjectKind) : Edge :=
  ⟨f.key, f.kind, targetOf c r kind, kind⟩

theorem edges_eq (c : Catalog) (index : Index) (f : OwnedFormula) :
    f.edges (Graph.build c index).lookup =
      f.references.measures.toList.map (f.edgeTo c · .measure)
        ++ f.references.columns.toList.map (f.edgeTo c · .column) := by
  refine congrArg₂ (· ++ ·) rfl (List.map_congr_left fun r _ => ?_)
  rw [Graph.get?_lookup_build]
  rfl

end OwnedFormula

/-- Whether an edge is made of a reference by a formula of the catalog. -/
def MadeOf (c : Catalog) (index : Index) (r : ObjectRef) (e : Edge) : Prop :=
  ∃ f ∈ OwnedFormula.ofCatalog c index,
    r ∈ referencesOfKind f.references e.targetKind ∧ e = f.edgeTo c r e.targetKind

namespace Graph

theorem mem_edges_build_iff {e : Edge} :
    e ∈ (build c index).edges ↔ ∃ r, MadeOf c index r e := by
  rw [mem_edges_build]
  refine ⟨?_, ?_⟩
  · rintro ⟨f, hf, he⟩
    rw [OwnedFormula.edges_eq, List.mem_append, List.mem_map, List.mem_map] at he
    rcases he with ⟨r, hr, rfl⟩ | ⟨r, hr, rfl⟩
    · exact ⟨r, f, hf, hr, rfl⟩
    · exact ⟨r, f, hf, hr, rfl⟩
  · rintro ⟨r, f, hf, hr, he⟩
    refine ⟨f, hf, ?_⟩
    rw [OwnedFormula.edges_eq, List.mem_append, List.mem_map, List.mem_map]
    cases hkind : e.targetKind with
    | measure =>
        rw [hkind] at hr he
        exact Or.inl ⟨r, hr, he.symm⟩
    | column =>
        rw [hkind] at hr he
        exact Or.inr ⟨r, hr, he.symm⟩

/-- Every edge made of a reference to a declared object ends at a node with its names,
and what uses the node is found there; only edges of other references end nowhere. -/
structure EdgesMeet (c : Catalog) (index : Index) : Prop where
  meets : ∀ e ∈ (build c index).edges, ∀ r, MadeOf c index r e → Declares c r →
    (build c index).Meets e r
  strays : ∀ e ∈ (build c index).edges, e.target ∉ (build c index).nodes.keys →
    ∀ r, MadeOf c index r e → ¬ Declares c r

/-- The key that a reference leads to is answered for by an object with its names, and is
not the key of the formula that refers to it. -/
structure TargetsKept (c : Catalog) (index : Index) : Prop where
  measures : ∀ f ∈ OwnedFormula.ofCatalog c index, ∀ r ∈ f.references.measures,
    Declares c r → AnswersFor c r.key r ∧ f.key ≠ r.key
  /-- The lookup leads to the first object with the lowercase key of the reference. -/
  columns : ∀ f ∈ OwnedFormula.ofCatalog c index, ∀ r ∈ f.references.columns,
    Declares c r → ∀ n, firstNamed? c r.normalized = some n →
      AnswersFor c n.key r ∧ f.key ≠ n.key

theorem exists_firstNamed?_of_declares (h : Declares c r) :
    ∃ n, firstNamed? c r.normalized = some n := by
  obtain ⟨n, hn, hnamed⟩ := h
  rw [← ObjectRef.normalized_eq_of_isNamed hnamed]
  exact exists_firstNamed? hn

theorem targetsKept_iff :
    TargetsKept c index ↔ ∀ f ∈ OwnedFormula.ofCatalog c index, ∀ kind,
      ∀ r ∈ referencesOfKind f.references kind, Declares c r →
        AnswersFor c (OwnedFormula.targetOf c r kind) r
          ∧ f.key ≠ OwnedFormula.targetOf c r kind := by
  have htarget : ∀ r n, firstNamed? c r.normalized = some n →
      OwnedFormula.targetOf c r .column = n.key := by
    intro r n hn
    rw [OwnedFormula.targetOf, OwnedFormula.columnTarget, hn]
    rfl
  refine ⟨?_, ?_⟩
  · intro h f hf kind r hr hdeclared
    cases kind with
    | measure => exact h.measures f hf r hr hdeclared
    | column =>
        obtain ⟨n, hn⟩ := exists_firstNamed?_of_declares hdeclared
        rw [htarget r n hn]
        exact h.columns f hf r hr hdeclared n hn
  · intro h
    refine ⟨fun f hf r hr => h f hf .measure r hr, ?_⟩
    intro f hf r hr hdeclared n hn
    have hkept := h f hf .column r hr hdeclared
    rwa [htarget r n hn] at hkept

theorem targetsKept_of_edgesMeet (h : EdgesMeet c index) : TargetsKept c index := by
  rw [targetsKept_iff]
  intro f hf kind r hr hdeclared
  have hmade : MadeOf c index r (f.edgeTo c r kind) := ⟨f, hf, hr, rfl⟩
  have he : f.edgeTo c r kind ∈ (build c index).edges := mem_edges_build_iff.mpr ⟨r, hmade⟩
  obtain ⟨⟨n, hn, hnamed⟩, hne⟩ :=
    (meets_iff (keyed_build c index) he).mp (h.meets _ he r hmade hdeclared)
  rw [get?_nodes_build] at hn
  exact ⟨⟨n, hn, hnamed⟩, hne⟩

theorem edgesMeet_of_targetsKept (h : TargetsKept c index) : EdgesMeet c index := by
  rw [targetsKept_iff] at h
  have hmeets : ∀ e ∈ (build c index).edges, ∀ r, MadeOf c index r e → Declares c r →
      (build c index).Meets e r := by
    rintro e he r ⟨f, hf, hr, hmade⟩ hdeclared
    obtain ⟨⟨n, hn, hnamed⟩, hne⟩ := h f hf e.targetKind r hr hdeclared
    rw [meets_iff (keyed_build c index) he, hmade, get?_nodes_build]
    exact ⟨⟨n, hn, hnamed⟩, hne⟩
  refine ⟨hmeets, ?_⟩
  intro e he hstray r hmade hdeclared
  obtain ⟨n, hn, -⟩ := (hmeets e he r hmade hdeclared).node
  exact hstray (SortedMap.mem_keys_iff.mpr ⟨n, hn⟩)

/-- The edges of a catalog under an index meet the nodes that are meant exactly when the
keys they lead to are kept for these. -/
theorem edgesMeet_iff_targetsKept (c : Catalog) (index : Index) :
    EdgesMeet c index ↔ TargetsKept c index :=
  ⟨targetsKept_of_edgesMeet, edgesMeet_of_targetsKept⟩

/-- A measure with a user. -/
def salesTotal : Catalog where
  tables :=
    [{ name := "Sales"
       measures :=
        [{ table := "Sales", name := "Total", expression := "1" },
         { table := "Sales", name := "Twice", expression := "[Total] * 2" }] }]

/-- An index that spells the measure in small letters. -/
def smallLetters : Index := Index.ofRows [⟨"sales", "total"⟩] []

theorem not_edgesMeet_smallLetters :
    ¬ EdgesMeet salesTotal smallLetters
      ∧ (build salesTotal smallLetters).dependents .measure "Sales[Total]" = []
      ∧ (build salesTotal smallLetters).dependents .column "Sales[Total]" = [] := by
  refine ⟨?_, by decide +kernel, by decide +kernel⟩
  intro h
  have he : ⟨"Sales[Twice]", .measure, "sales[total]", .measure⟩ ∈
      (build salesTotal smallLetters).edges := by decide +kernel
  obtain ⟨r, hmade⟩ := mem_edges_build_iff.mp he
  have hkey : r.key = (⟨"sales", "total"⟩ : ObjectRef).key := by
    obtain ⟨f, -, -, heq⟩ := hmade
    exact (congrArg Edge.target heq).symm
  have hr : r = ⟨"sales", "total"⟩ := ObjectRef.eq_of_key_eq (by decide) hkey
  have hdeclared : Declares salesTotal r := by
    rw [hr]
    exact ⟨.ofMeasure { table := "Sales", name := "Total", expression := "1" },
      by decide, by decide⟩
  have hstray : "sales[total]" ∉ (build salesTotal smallLetters).nodes.keys := by
    decide +kernel
  exact h.strays _ he hstray r hmade hdeclared

/-! ## Plain catalogs -/

section Plain

variable (hplain : ∀ n ∈ Node.ofCatalog c, n.object.Plain)
include hplain

theorem firstNamed?_eq_none_of_table (htable : r.table = "") :
    firstNamed? c r.normalized = none := by
  refine Option.eq_none_iff_forall_ne_some.mpr fun n hn => ?_
  obtain ⟨hmem, hsame⟩ := mem_ofCatalog_of_firstNamed? hn
  have hfold := (ObjectRef.fold_eq_of_normalized_eq (hplain n hmem) hsame.symm).1
  rw [htable, eq_comm] at hfold
  exact (hplain n hmem).table_ne (fold_eq_empty_iff.mp hfold)

theorem table_ne_of_declares (h : Declares c r) : r.table ≠ "" := by
  intro htable
  obtain ⟨n, hn⟩ := exists_firstNamed?_of_declares h
  rw [firstNamed?_eq_none_of_table hplain htable] at hn
  exact absurd hn.symm (Option.some_ne_none n)

theorem answersFor_of_mem {n : Node} (hn : n ∈ Node.ofCatalog c)
    (hnamed : n.object.isNamed r.table r.name = true) : AnswersFor c n.key r := by
  obtain ⟨m, hm⟩ := exists_firstWithKey? hn
  have hkey : m.object.key = n.object.key := (mem_ofCatalog_of_firstWithKey? hm).2
  have hsame : m.object = n.object := ObjectRef.eq_of_key_eq (hplain n hn) hkey
  exact ⟨m, hm, by rwa [hsame]⟩

theorem key_ne_of_mem {f : OwnedFormula} (hf : f ∈ OwnedFormula.ofCatalog c index)
    (kind : ObjectKind) (hr : r ∈ referencesOfKind f.references kind) {n : Node}
    (hn : n ∈ Node.ofCatalog c) (hsame : n.object.normalized = r.normalized) :
    f.key ≠ n.key := by
  intro hkey
  -- references to the owner itself were taken out
  have howner : f.owner = n.object := ObjectRef.eq_of_key_eq (hplain n hn) hkey
  obtain ⟨formula, heq⟩ := OwnedFormula.exists_formula hf
  rw [heq, mem_withoutOwner, howner] at hr
  exact hr.2 hsame.symm

/-- In a plain catalog, the edges meet the nodes that are meant exactly when references to
declared measures are spelled as the catalog spells them. -/
theorem edgesMeet_iff_of_plain :
    EdgesMeet c index ↔ ∀ f ∈ OwnedFormula.ofCatalog c index, ∀ r ∈ f.references.measures,
      Declares c r → ∃ n ∈ Node.ofCatalog c, n.object = r := by
  refine ⟨?_, ?_⟩
  · intro h f hf r hr hdeclared
    obtain ⟨n, hn, -⟩ := ((targetsKept_of_edgesMeet h).measures f hf r hr hdeclared).1
    obtain ⟨hmem, hkey⟩ := mem_ofCatalog_of_firstWithKey? hn
    exact ⟨n, hmem, (ObjectRef.eq_of_key_eq (hplain n hmem) hkey.symm).symm⟩
  · intro h
    refine edgesMeet_of_targetsKept ⟨?_, ?_⟩
    · intro f hf r hr hdeclared
      obtain ⟨n, hn, rfl⟩ := h f hf r hr hdeclared
      refine ⟨answersFor_of_mem hplain hn (ObjectRef.isNamed_iff.mpr ⟨rfl, rfl⟩), ?_⟩
      exact key_ne_of_mem hplain hf .measure hr hn rfl
    · intro f hf r hr _ n hn
      obtain ⟨hmem, hsame⟩ := mem_ofCatalog_of_firstNamed? hn
      have hnamed : n.object.isNamed r.table r.name = true :=
        (hplain n hmem).unbarred.normalized_eq_iff.mp hsame
      exact ⟨answersFor_of_mem hplain hmem hnamed,
        key_ne_of_mem hplain hf .column hr hmem hsame⟩

/-- Whatever an index was filled with, the edges meet the nodes that are meant if it spells
no declared measure in its own way. -/
theorem edgesMeet_of_spelledAlike {as : List Addition} (hfilled : index.FilledBy as)
    (halike : ∀ owner name r, index.measures.get? owner name = some r → Declares c r →
      ∃ n ∈ Node.ofCatalog c, n.object = r) : EdgesMeet c index := by
  rw [edgesMeet_iff_of_plain hplain]
  intro f hf r hr hdeclared
  rcases OwnedFormula.spelled_of_mem hfilled hf hr with htable | ⟨owner, name, hfound⟩
  · exact absurd htable (table_ne_of_declares hplain hdeclared)
  · exact halike owner name r hfound hdeclared

/-- The index of the catalog itself spells its measures as they are. -/
theorem edgesMeet_ofCatalog (h : Orderly c.tables) : EdgesMeet c (.ofCatalog c) := by
  rw [edgesMeet_iff_of_plain hplain]
  intro f hf r hr hdeclared
  rcases OwnedFormula.exists_measure_of_mem h hf hr with htable | ⟨m, hm, rfl⟩
  · exact absurd htable (table_ne_of_declares hplain hdeclared)
  · exact ⟨.ofMeasure m, ofMeasure_mem_ofCatalog hm, rfl⟩

end Plain

end Graph

end Tabular.Dependency
