import Tabular.Proofs.Dependency.Ends

/-!
# Direct dependencies and all dependencies

The direct dependencies of an object are read off the edges of formulas of one kind, that
of the node under its key. Its dependents, and all that it depends on in the end, are read
off the edges of both kinds. A measure and a calculated column can share a key, and then the
formula of the one that comes second is left out of the former only.

A key that no node has still can be the end of an edge. No formula belongs to it, so nothing
lies behind it; but where a key is looked up as a text, it may spell the name of another
node, and the direct dependencies of that one are given instead.

The directions agree exactly when neither makes a difference along an edge. This is enough
for paths: direct dependencies lead from node to node by edges, and a key without a node can
only be entered by an edge, from a node that then has to have what is given behind it.
-/

namespace Tabular.Dependency

open Ordered Formula Text
open Relation (ReflTransGen TransGen)

namespace Graph

/-- Whether an object is listed among the direct dependencies of another one. -/
def Lists (g : Graph) (a b : Key) : Prop := ∃ kind, (b, kind) ∈ g.dependsOn a

/-- The direct dependencies of nodes are those that their dependents have, and what can be
reached by direct dependencies is all that a node depends on. -/
structure DirectAgrees (g : Graph) : Prop where
  direct : ∀ a ∈ g.nodes.keys, ∀ b ∈ g.nodes.keys,
    g.Lists a b ↔ a ∈ g.dependents .measure b ∨ a ∈ g.dependents .column b
  transitive : ∀ a ∈ g.nodes.keys, ∀ b,
    b ∈ g.allDependencies a ↔ b ≠ a ∧ TransGen g.Lists a b

variable {c : Catalog} {index : Index} {a b key : Key}

/-- What a formula leads to is listed by the key of its owner, in the end, and nothing else
is listed by a key that a formula leads to without a node. -/
structure EdgesListed (c : Catalog) (index : Index) : Prop where
  /-- The node under a key is of the kind of some formula that leads to the same node. -/
  nodes : ∀ f ∈ OwnedFormula.ofCatalog c index, ∀ key ∈ (build c index).nodes.keys,
    f.LeadsTo c key → ∃ f' ∈ OwnedFormula.ofCatalog c index,
      f'.key = f.key ∧ f'.kind = kindAt c f.key ∧ f'.LeadsTo c key
  strays : ∀ f ∈ OwnedFormula.ofCatalog c index, ∀ key ∉ (build c index).nodes.keys,
    f.LeadsTo c key → TransGen (build c index).Lists f.key key
  /-- What is listed by a key without a node is listed for a node that its text spells. -/
  echoes : ∀ f ∈ OwnedFormula.ofCatalog c index, ∀ key ∉ (build c index).nodes.keys,
    f.LeadsTo c key → ∀ b ≠ f.key, (build c index).Lists key b →
      b ∈ (build c index).allDependencies f.key

/-! ## Edges as formulas that lead somewhere -/

theorem dependsOn_build_iff :
    (build c index).DependsOn a b ↔
      ∃ f ∈ OwnedFormula.ofCatalog c index, f.key = a ∧ f.LeadsTo c b := by
  refine ⟨?_, ?_⟩
  · rintro ⟨⟨owner, ownerKind, target, targetKind⟩, he, howner, htarget⟩
    subst howner htarget
    obtain ⟨f, hf, hkey, -, hleads⟩ := exists_edge_build_iff.mp ⟨targetKind, he⟩
    exact ⟨f, hf, hkey, hleads⟩
  · rintro ⟨f, hf, hkey, hleads⟩
    obtain ⟨targetKind, he⟩ := exists_edge_build_iff.mpr ⟨f, hf, hkey, rfl, hleads⟩
    exact ⟨_, he, rfl, rfl⟩

theorem key_mem_nodes_keys {f : OwnedFormula} (hf : f ∈ OwnedFormula.ofCatalog c index) :
    f.key ∈ (build c index).nodes.keys := by
  obtain ⟨n, hn, hkey, -⟩ := OwnedFormula.exists_owner hf
  exact mem_nodes_keys_build.mpr ⟨n, hn, hkey⟩

theorem lists_build_iff :
    (build c index).Lists a b ↔ ∃ f ∈ OwnedFormula.ofCatalog c index,
      f.key = (build c index).canonical a
        ∧ f.kind = kindAt c ((build c index).canonical a) ∧ f.LeadsTo c b := by
  have hkind : (((build c index).nodes.get? ((build c index).canonical a)).map
      (·.kind)).getD .measure = kindAt c ((build c index).canonical a) := by
    rw [get?_nodes_build]
    rfl
  rw [← exists_edge_build_iff, Lists]
  refine exists_congr fun kind => ?_
  simp only [dependsOn, hkind]
  cases kind with
  | measure => simp [mem_targets]
  | column => simp [mem_targets]

theorem canonical_of_mem (ha : a ∈ (build c index).nodes.keys) :
    (build c index).canonical a = a := canonical_of_mem_keys (keyed_build c index) ha

theorem mem_allDependencies (ha : a ∈ (build c index).nodes.keys) :
    b ∈ (build c index).allDependencies a ↔
      b ≠ a ∧ ReflTransGen (build c index).DependsOn a b := by
  rw [allDependencies, mem_search_forward, canonical_of_mem ha]

theorem dependsOn_of_lists (ha : a ∈ (build c index).nodes.keys)
    (h : (build c index).Lists a b) : (build c index).DependsOn a b := by
  rw [lists_build_iff, canonical_of_mem ha] at h
  obtain ⟨f, hf, hkey, -, hleads⟩ := h
  exact dependsOn_build_iff.mpr ⟨f, hf, hkey, hleads⟩

theorem lists_of_kindAt {f : OwnedFormula} (hf : f ∈ OwnedFormula.ofCatalog c index)
    (hkind : f.kind = kindAt c f.key) (hleads : f.LeadsTo c b) :
    (build c index).Lists f.key b := by
  rw [lists_build_iff, canonical_of_mem (key_mem_nodes_keys hf)]
  exact ⟨f, hf, rfl, hkind, hleads⟩

theorem mem_dependents_iff_dependsOn (hb : b ∈ (build c index).nodes.keys) :
    a ∈ (build c index).dependents .measure b ∨ a ∈ (build c index).dependents .column b ↔
      (build c index).DependsOn a b := by
  rw [mem_dependents_build hb, mem_dependents_build hb, dependsOn_build_iff]
  refine ⟨?_, ?_⟩
  · intro h
    rcases h with ⟨f, hf, hkey, -, hleads⟩ | ⟨f, hf, hkey, -, hleads⟩
    · exact ⟨f, hf, hkey, hleads⟩
    · exact ⟨f, hf, hkey, hleads⟩
  · rintro ⟨f, hf, hkey, hleads⟩
    cases hkind : f.kind with
    | measure => exact Or.inl ⟨f, hf, hkey, hkind, hleads⟩
    | column => exact Or.inr ⟨f, hf, hkey, hkind, hleads⟩

/-! ## Paths -/

namespace EdgesListed

variable (h : EdgesListed c index)
include h

theorem lists_of_dependsOn (hab : (build c index).DependsOn a b)
    (hb : b ∈ (build c index).nodes.keys) : (build c index).Lists a b := by
  obtain ⟨f, hf, rfl, hleads⟩ := dependsOn_build_iff.mp hab
  obtain ⟨f', hf', hkey, hkind, hleads'⟩ := h.nodes f hf b hb hleads
  rw [← hkey] at hkind ⊢
  exact lists_of_kindAt hf' hkind hleads'

theorem transGen_of_dependsOn (hab : (build c index).DependsOn a b) :
    TransGen (build c index).Lists a b := by
  by_cases hb : b ∈ (build c index).nodes.keys
  · exact .single (h.lists_of_dependsOn hab hb)
  · obtain ⟨f, hf, rfl, hleads⟩ := dependsOn_build_iff.mp hab
    exact h.strays f hf b hb hleads

theorem reflTransGen_of_transGen (ha : a ∈ (build c index).nodes.keys)
    (hab : TransGen (build c index).Lists a b) :
    ReflTransGen (build c index).DependsOn a b := by
  induction hab with
  | single hlists => exact .single (dependsOn_of_lists ha hlists)
  | @tail x y _ hxy ih =>
      by_cases hx : x ∈ (build c index).nodes.keys
      · exact ih.tail (dependsOn_of_lists hx hxy)
      · -- no edge starts at x: the path goes on from the owner of the edge that led there
        cases ih with
        | refl => exact absurd ha hx
        | tail haz hzx =>
            obtain ⟨f, hf, rfl, hleads⟩ := dependsOn_build_iff.mp hzx
            by_cases hy : y = f.key
            · rwa [hy]
            · have hmem := h.echoes f hf x hx hleads y hy hxy
              rw [mem_allDependencies (key_mem_nodes_keys hf)] at hmem
              exact haz.trans hmem.2

end EdgesListed

theorem directAgrees_of_edgesListed (h : EdgesListed c index) :
    DirectAgrees (build c index) := by
  refine ⟨?_, ?_⟩
  · intro a ha b hb
    rw [mem_dependents_iff_dependsOn hb]
    exact ⟨dependsOn_of_lists ha, fun hab => h.lists_of_dependsOn hab hb⟩
  · intro a ha b
    rw [mem_allDependencies ha]
    refine and_congr_right fun hne => ⟨?_, h.reflTransGen_of_transGen ha⟩
    intro hab
    rcases Relation.reflTransGen_iff_eq_or_transGen.mp hab with heq | hpath
    · exact absurd heq hne
    · exact TransGen.closed (fun _ _ hxy => h.transGen_of_dependsOn hxy) _ _ hpath

theorem edgesListed_of_directAgrees (h : DirectAgrees (build c index)) :
    EdgesListed c index := by
  have hstrays : ∀ f ∈ OwnedFormula.ofCatalog c index, ∀ key ∉ (build c index).nodes.keys,
      f.LeadsTo c key → TransGen (build c index).Lists f.key key := by
    intro f hf key hkey hleads
    have hnode := key_mem_nodes_keys hf
    have hne : key ≠ f.key := fun heq => hkey (heq ▸ hnode)
    have hmem : key ∈ (build c index).allDependencies f.key :=
      (mem_allDependencies hnode).mpr
        ⟨hne, .single (dependsOn_build_iff.mpr ⟨f, hf, rfl, hleads⟩)⟩
    exact ((h.transitive f.key hnode key).mp hmem).2
  refine ⟨?_, hstrays, ?_⟩
  · intro f hf key hkey hleads
    have hnode := key_mem_nodes_keys hf
    have hlists : (build c index).Lists f.key key := by
      rw [h.direct f.key hnode key hkey, mem_dependents_iff_dependsOn hkey]
      exact dependsOn_build_iff.mpr ⟨f, hf, rfl, hleads⟩
    rwa [lists_build_iff, canonical_of_mem hnode] at hlists
  · intro f hf key hkey hleads b hb hlists
    rw [h.transitive f.key (key_mem_nodes_keys hf)]
    exact ⟨hb, (hstrays f hf key hkey hleads).tail hlists⟩

/-- Direct and transitive dependencies agree in both directions exactly when every edge is
listed. -/
theorem directAgrees_iff_edgesListed (c : Catalog) (index : Index) :
    DirectAgrees (build c index) ↔ EdgesListed c index :=
  ⟨edgesListed_of_directAgrees, directAgrees_of_edgesListed⟩

/-- A calculated column behind a measure with its name. -/
def sharedKey : Catalog where
  tables :=
    [{ name := "T"
       columns :=
        [{ table := "T", name := "X", expression := some "T[Y]" },
         { table := "T", name := "Y" }]
       measures := [{ table := "T", name := "X", expression := "1" }] }]

theorem not_directAgrees_sharedKey :
    ¬ DirectAgrees (ofCatalog sharedKey)
      ∧ (ofCatalog sharedKey).dependsOn "T[X]" = []
      ∧ (ofCatalog sharedKey).dependents .column "T[Y]" = ["T[X]"] := by
  have hnone : (ofCatalog sharedKey).dependsOn "T[X]" = [] := by decide +kernel
  have husers : (ofCatalog sharedKey).dependents .column "T[Y]" = ["T[X]"] := by
    decide +kernel
  refine ⟨?_, hnone, husers⟩
  intro h
  have hx : "T[X]" ∈ (ofCatalog sharedKey).nodes.keys := by decide +kernel
  have hy : "T[Y]" ∈ (ofCatalog sharedKey).nodes.keys := by decide +kernel
  obtain ⟨kind, hlisted⟩ := (h.direct _ hx _ hy).mpr (Or.inr (by rw [husers]; decide))
  rw [hnone] at hlisted
  exact List.not_mem_nil hlisted

/-! ## Plain catalogs -/

section Plain

variable (hplain : ∀ n ∈ Node.ofCatalog c, n.object.Plain)
include hplain

/-- A lowercase key of no object belongs to a key that spells no node. -/
theorem canonical_of_firstNamed?_eq_none {r : ObjectRef}
    (hnone : firstNamed? c r.normalized = none) : (build c index).canonical r.key = r.key := by
  cases hfind : (build c index).findKey? r.key with
  | none => simp [canonical, hfind]
  | some n =>
      rw [findKey?, Option.or_eq_some_iff] at hfind
      rcases hfind with hnode | ⟨-, hspelled⟩
      · exact canonical_of_mem (SortedMap.mem_keys_iff.mpr ⟨n, hnode⟩)
      · -- the key would spell the names of a plain object, and so those of the reference
        obtain ⟨s, hs, hfound⟩ := Option.bind_eq_some_iff.mp hspelled
        obtain ⟨k, hk, -⟩ := Option.bind_eq_some_iff.mp hfound
        rw [get?_lookup_build, Option.map_eq_some_iff] at hk
        obtain ⟨m, hm, -⟩ := hk
        obtain ⟨hmem, hsame⟩ := mem_ofCatalog_of_firstNamed? hm
        obtain ⟨hkey, htable⟩ := ObjectRef.ofKey?_eq_some_iff.mp hs
        have hfold := ObjectRef.fold_eq_of_normalized_eq (r := s) (hplain m hmem) hsame.symm
        have hname : '[' ∉ s.name.toList := by
          rw [← isMark_bracket.mem_fold_iff, hfold.2, isMark_bracket.mem_fold_iff]
          exact (hplain m hmem).name_bracket
        have hrs : r = s := ObjectRef.eq_of_key_eq_of_notMem htable hname hkey
        rw [hrs] at hnone
        exact absurd (hnone.symm.trans hm) (Option.some_ne_none m).symm

/-- Under its own index, a plain catalog has nothing behind a key without a node. -/
theorem not_lists_of_leadsTo (horderly : Orderly c.tables) {f : OwnedFormula}
    (hf : f ∈ OwnedFormula.ofCatalog c (.ofCatalog c))
    (hkey : key ∉ (ofCatalog c).nodes.keys) (hleads : f.LeadsTo c key) :
    ¬ (ofCatalog c).Lists key b := by
  rw [ofCatalog] at hkey
  have hnode : ∀ n ∈ Node.ofCatalog c, n.key ≠ key :=
    fun n hn heq => hkey (mem_nodes_keys_build.mpr ⟨n, hn, heq⟩)
  have hstray : ∃ r : ObjectRef, r.key = key ∧ firstNamed? c r.normalized = none := by
    rcases hleads with ⟨r, hr, htarget⟩ | ⟨r, hr, htarget⟩
    · refine ⟨r, htarget, ?_⟩
      rcases OwnedFormula.exists_measure_of_mem horderly hf hr with htable | ⟨m, hm, rfl⟩
      · exact firstNamed?_eq_none_of_table hplain htable
      · exact absurd htarget (hnode (.ofMeasure m) (ofMeasure_mem_ofCatalog hm))
    · rw [OwnedFormula.columnTarget] at htarget
      cases hfirst : firstNamed? c r.normalized with
      | none =>
          rw [hfirst] at htarget
          exact ⟨r, htarget, hfirst⟩
      | some n =>
          rw [hfirst] at htarget
          exact absurd htarget (hnode n (mem_ofCatalog_of_firstNamed? hfirst).1)
  obtain ⟨r, rfl, hnone⟩ := hstray
  rw [ofCatalog, lists_build_iff, canonical_of_firstNamed?_eq_none hplain hnone]
  rintro ⟨f', hf', howner, -⟩
  rw [← howner] at hkey
  exact hkey (key_mem_nodes_keys hf')

/-- In a plain catalog, direct and transitive dependencies agree if the node under the key
of each formula is of the kind of its owner. -/
theorem directAgrees_of_kindAt (horderly : Orderly c.tables)
    (hkinds : ∀ f ∈ OwnedFormula.ofCatalog c (.ofCatalog c), f.kind = kindAt c f.key) :
    DirectAgrees (ofCatalog c) := by
  refine directAgrees_of_edgesListed ⟨?_, ?_, ?_⟩
  · intro f hf key _ hleads
    exact ⟨f, hf, rfl, hkinds f hf, hleads⟩
  · intro f hf key _ hleads
    exact .single (lists_of_kindAt hf (hkinds f hf) hleads)
  · intro f hf key hkey hleads b _ hlists
    exact absurd hlists (not_lists_of_leadsTo hplain horderly hf hkey hleads)

end Plain

/-- Where everything is declared once, direct and transitive dependencies agree. -/
theorem directAgrees_of_declaredOnce (horderly : Orderly c.tables) (h : DeclaredOnce c) :
    DirectAgrees (ofCatalog c) :=
  directAgrees_of_kindAt h.plain horderly fun _ hf => (kindAt_owner h hf).symm

end Graph

end Tabular.Dependency
