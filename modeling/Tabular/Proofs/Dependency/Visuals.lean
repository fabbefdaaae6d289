import Mathlib.Data.List.Nodup
import Tabular.Dependency.Impact
import Tabular.Proofs.Dependency.Nodes
import Tabular.Proofs.Object

/-!
# The visuals of an impact

A visual binds an object when it shows it or filters by it, in any case of the names. The
impact of an object is meant to list each visual that binds the object once, marked when
nothing but a filter does so, and the pages of these visuals.

What the impact lists are the bindings of the object that its key spells, and two of them
are one only when a filter makes both or neither of them. A visual that shows an object
and filters by it stands in the list twice for that reason. And the key of a table with a
bracket in its name spells another object, so that the visuals of that one are listed.
Where the visuals do neither of these things, the list is what it is meant to be.
-/

namespace Tabular

open Formula Ordered Dependency

/-- Whether an object is among fields, in any case. -/
def VisualFields.names (fs : VisualFields) (o : ObjectRef) : Bool :=
  fs.toList.any fun f => f.object.isNamed o.table o.name

namespace Visual

/-- Whether a visual shows an object. -/
def shows (v : Visual) (o : ObjectRef) : Bool := v.fields.names o

/-- Whether a visual filters by an object. -/
def filtersBy (v : Visual) (o : ObjectRef) : Bool := v.filters.names o

/-- Whether a visual shows an object or filters by it. -/
def bindsObject (v : Visual) (o : ObjectRef) : Bool := v.shows o || v.filtersBy o

/-- The use of something that a visual shows, or that it filters by. -/
def use (v : Visual) (viaFilter : Bool) : VisualUse :=
  ⟨v.id, v.visualType, v.page, viaFilter⟩

/-- The use of an object that a visual binds, which is one by a filter when the visual
does not show the object. -/
def useOf (v : Visual) (o : ObjectRef) : VisualUse := v.use (!v.shows o)

/-- Whether a visual has a binding of an object, of one made by a filter or of another. -/
def bindsVia (v : Visual) (o : ObjectRef) : Bool → Bool
  | false => v.shows o
  | true => v.filtersBy o

theorem bindsObject_iff {v : Visual} {o : ObjectRef} :
    v.bindsObject o = true ↔ ∃ viaFilter, v.bindsVia o viaFilter = true := by
  rw [Bool.exists_bool, bindsObject, Bool.or_eq_true]
  rfl

theorem mem_bindingsOf {v : Visual} {viaFilter : Bool} {fs : VisualFields} {b : Binding} :
    b ∈ v.bindingsOf viaFilter fs ↔
      ∃ f ∈ fs.toList, ⟨v.id, v.visualType, v.page, f.object, f.kind, viaFilter⟩ = b := by
  simp only [bindingsOf, VisualFields.toList, List.mem_append, List.mem_map]
  constructor
  · rintro (⟨o, ho, rfl⟩ | ⟨o, ho, rfl⟩)
    · exact ⟨_, Or.inr ⟨o, ho, rfl⟩, rfl⟩
    · exact ⟨_, Or.inl ⟨o, ho, rfl⟩, rfl⟩
  · rintro ⟨f, ⟨o, ho, rfl⟩ | ⟨o, ho, rfl⟩, rfl⟩
    · exact Or.inr ⟨o, ho, rfl⟩
    · exact Or.inl ⟨o, ho, rfl⟩

/-- The bindings of an object in one visual are the uses it makes of the object. -/
theorem exists_bindings_iff {v : Visual} {o : ObjectRef} {u : VisualUse} :
    (∃ b ∈ v.bindings, b.binds o = true ∧ VisualUse.ofBinding b = u) ↔
      ∃ viaFilter, v.bindsVia o viaFilter = true ∧ v.use viaFilter = u := by
  have hlist : ∀ viaFilter fs, (∃ b ∈ v.bindingsOf viaFilter fs, b.binds o = true
      ∧ VisualUse.ofBinding b = u) ↔ fs.names o = true ∧ v.use viaFilter = u := by
    intro viaFilter fs
    rw [VisualFields.names, List.any_eq_true]
    constructor
    · rintro ⟨b, hb, hbinds, hu⟩
      obtain ⟨f, hf, rfl⟩ := mem_bindingsOf.mp hb
      exact ⟨⟨f, hf, hbinds⟩, hu⟩
    · rintro ⟨⟨f, hf, hbinds⟩, hu⟩
      exact ⟨_, mem_bindingsOf.mpr ⟨f, hf, rfl⟩, hbinds, hu⟩
  rw [Bool.exists_bool, bindings]
  simp only [List.mem_append, or_and_right, exists_or, hlist]
  rfl

theorem page_of_mem_bindings {v : Visual} {b : Binding} (h : b ∈ v.bindings) :
    b.page = v.page := by
  rcases List.mem_append.mp h with h | h
  · obtain ⟨f, -, rfl⟩ := mem_bindingsOf.mp h
    rfl
  · obtain ⟨f, -, rfl⟩ := mem_bindingsOf.mp h
    rfl

theorem eq_page_of_mem {v : Visual} {o : ObjectRef} {page : String}
    (h : page ∈ (v.bindings.filter (·.binds o)).map (·.page)) : page = v.page := by
  obtain ⟨b, hb, rfl⟩ := List.mem_map.mp h
  exact page_of_mem_bindings (List.mem_of_mem_filter hb)

theorem page_mem_iff {v : Visual} {o : ObjectRef} :
    v.page ∈ (v.bindings.filter (·.binds o)).map (·.page) ↔ v.bindsObject o = true := by
  rw [bindsObject_iff, List.mem_map]
  constructor
  · rintro ⟨b, hb, -⟩
    obtain ⟨hmem, hbinds⟩ := List.mem_filter.mp hb
    obtain ⟨viaFilter, hvia, -⟩ := exists_bindings_iff.mp ⟨b, hmem, hbinds, rfl⟩
    exact ⟨viaFilter, hvia⟩
  · rintro ⟨viaFilter, hvia⟩
    obtain ⟨b, hmem, hbinds, -⟩ := exists_bindings_iff.mpr ⟨viaFilter, hvia, rfl⟩
    exact ⟨b, List.mem_filter.mpr ⟨hmem, hbinds⟩, page_of_mem_bindings hmem⟩

end Visual

namespace Dependency

/-- Whether no two visuals of a page have the same identifier. -/
def IdsApart (vs : List Visual) : Prop := (vs.map fun v => (v.page, v.id)).Nodup

instance (vs : List Visual) : Decidable (IdsApart vs) := by
  unfold IdsApart
  infer_instance

/-- What an impact is meant to say about visuals: it lists each one that binds the object,
marked when the visual does not show it, and their pages in order. -/
structure ListsVisuals (vs : List Visual) (o : ObjectRef) (i : Impact) : Prop where
  visuals : i.visuals.Perm ((vs.filter (·.bindsObject o)).map (·.useOf o))
  pages : i.pages = firstSeen ((vs.filter (·.bindsObject o)).map (·.page))

instance (vs : List Visual) (o : ObjectRef) (i : Impact) : Decidable (ListsVisuals vs o i) :=
  decidable_of_iff (i.visuals.Perm ((vs.filter (·.bindsObject o)).map (·.useOf o))
      ∧ i.pages = firstSeen ((vs.filter (·.bindsObject o)).map (·.page)))
    ⟨fun ⟨hvisuals, hpages⟩ => ⟨hvisuals, hpages⟩, fun ⟨hvisuals, hpages⟩ => ⟨hvisuals, hpages⟩⟩

/-- Whether visuals show what the key of an object spells where they show the object, and
filter by it where they filter by the object and do not show it. -/
structure BoundOneWay (vs : List Visual) (o : ObjectRef) : Prop where
  shown : ∀ v ∈ vs, v.shows o.spelled = v.shows o
  filtered : ∀ v ∈ vs, v.filtersBy o.spelled = (v.filtersBy o && !v.shows o)

instance (vs : List Visual) (o : ObjectRef) : Decidable (BoundOneWay vs o) :=
  decidable_of_iff ((∀ v ∈ vs, v.shows o.spelled = v.shows o)
      ∧ ∀ v ∈ vs, v.filtersBy o.spelled = (v.filtersBy o && !v.shows o))
    ⟨fun ⟨hshown, hfiltered⟩ => ⟨hshown, hfiltered⟩,
      fun ⟨hshown, hfiltered⟩ => ⟨hshown, hfiltered⟩⟩

variable {vs : List Visual} {o : ObjectRef} {u : VisualUse}

theorem BoundOneWay.bindsObject_eq (h : BoundOneWay vs o) (v : Visual) (hv : v ∈ vs) :
    v.bindsObject o.spelled = v.bindsObject o := by
  rw [Visual.bindsObject, Visual.bindsObject, h.shown v hv, h.filtered v hv]
  cases v.shows o <;> simp

/-- Where the key of an object spells the object, the visuals that do both are in the way
and no others. -/
theorem boundOneWay_iff_of_notMem (h : '[' ∉ o.table.toList) :
    BoundOneWay vs o ↔ ∀ v ∈ vs, ¬ (v.shows o = true ∧ v.filtersBy o = true) := by
  have hone : ∀ v : Visual, v.filtersBy o = (v.filtersBy o && !v.shows o) ↔
      ¬ (v.shows o = true ∧ v.filtersBy o = true) := by
    intro v
    cases v.shows o <;> cases v.filtersBy o <;> decide
  constructor
  · intro hbound v hv
    have hfiltered := hbound.filtered v hv
    rw [ObjectRef.spelled_eq_self h] at hfiltered
    exact (hone v).mp hfiltered
  · intro hnone
    constructor <;> rw [ObjectRef.spelled_eq_self h]
    · exact fun _ _ => rfl
    · exact fun v hv => (hone v).mpr (hnone v hv)

/-- The bindings of what the key of an object spells are one for each visual that binds
the object, and of the kind that the visual should be listed with. -/
theorem boundOneWay_iff :
    BoundOneWay vs o ↔ ∀ v ∈ vs, ∀ viaFilter, v.bindsVia o.spelled viaFilter = true ↔
      v.bindsObject o = true ∧ viaFilter = !v.shows o := by
  have hboth : ∀ v : Visual,
      (v.shows o.spelled = v.shows o ∧ v.filtersBy o.spelled = (v.filtersBy o && !v.shows o)) ↔
        ∀ viaFilter, v.bindsVia o.spelled viaFilter = true ↔
          v.bindsObject o = true ∧ viaFilter = !v.shows o := by
    intro v
    rw [Bool.forall_bool, Visual.bindsVia, Visual.bindsVia, Visual.bindsObject]
    cases v.shows o <;> cases v.filtersBy o <;> cases v.shows o.spelled
      <;> cases v.filtersBy o.spelled <;> decide
  constructor
  · intro h v hv
    exact (hboth v).mp ⟨h.shown v hv, h.filtered v hv⟩
  · intro h
    exact ⟨fun v hv => ((hboth v).mpr (h v hv)).1, fun v hv => ((hboth v).mpr (h v hv)).2⟩

/-- The uses that visuals make are the same only when the visuals are. -/
theorem use_inj (hapart : IdsApart vs) {v w : Visual} (hv : v ∈ vs) (hw : w ∈ vs)
    {viaFilter viaFilter' : Bool} (h : v.use viaFilter = w.use viaFilter') :
    v = w ∧ viaFilter = viaFilter' := by
  have hpage : v.page = w.page := congrArg VisualUse.page h
  have hid : v.id = w.id := congrArg VisualUse.visualId h
  exact ⟨List.inj_on_of_nodup_map hapart hv hw (Prod.ext hpage hid),
    congrArg VisualUse.viaFilter h⟩

/-- Two rules give visuals the same uses exactly when they are the same for each visual. -/
theorem forall_use_iff (hapart : IdsApart vs) {P Q : Visual → Bool → Prop} :
    (∀ u, (∃ v ∈ vs, ∃ a, P v a ∧ v.use a = u) ↔ ∃ v ∈ vs, ∃ a, Q v a ∧ v.use a = u) ↔
      ∀ v ∈ vs, ∀ a, P v a ↔ Q v a := by
  have hmem : ∀ (R : Visual → Bool → Prop) {v : Visual} {a : Bool}, v ∈ vs →
      ((∃ w ∈ vs, ∃ b, R w b ∧ w.use b = v.use a) ↔ R v a) := by
    intro R v a hv
    constructor
    · rintro ⟨w, hw, b, hR, heq⟩
      obtain ⟨rfl, rfl⟩ := use_inj hapart hw hv heq
      exact hR
    · intro hR
      exact ⟨v, hv, a, hR, rfl⟩
  constructor
  · intro h v hv a
    rw [← hmem P hv, h, hmem Q hv]
  · intro h u
    refine exists_congr fun v => and_congr_right fun hv => exists_congr fun a => ?_
    exact and_congr_left fun _ => h v hv a

theorem mem_map_useOf :
    u ∈ (vs.filter (·.bindsObject o)).map (·.useOf o) ↔ ∃ v ∈ vs, ∃ viaFilter,
      (v.bindsObject o = true ∧ viaFilter = !v.shows o) ∧ v.use viaFilter = u := by
  rw [List.mem_map]
  constructor
  · rintro ⟨v, hv, rfl⟩
    obtain ⟨hmem, hbinds⟩ := List.mem_filter.mp hv
    exact ⟨v, hmem, _, ⟨hbinds, rfl⟩, rfl⟩
  · rintro ⟨v, hmem, _, ⟨hbinds, rfl⟩, rfl⟩
    exact ⟨v, List.mem_filter.mpr ⟨hmem, hbinds⟩, rfl⟩

theorem nodup_map_useOf (hapart : IdsApart vs) :
    ((vs.filter (·.bindsObject o)).map (·.useOf o)).Nodup := by
  refine List.Nodup.of_map (fun u : VisualUse => (u.page, u.visualId)) ?_
  rw [List.map_map]
  exact hapart.sublist (List.filter_sublist.map _)

theorem foldl_addNew_of_forall_eq {α : Type} [DecidableEq α] {x : α} {xs : List α}
    (h : ∀ y ∈ xs, y = x) (acc : List α) :
    xs.foldl addNew acc = if x ∈ xs then addNew acc x else acc := by
  induction xs generalizing acc with
  | nil => rfl
  | cons y rest ih =>
      obtain rfl := h y List.mem_cons_self
      have hthere : addNew (addNew acc y) y = addNew acc y :=
        if_pos (mem_addNew.mpr (Or.inr rfl))
      rw [List.foldl_cons, ih (fun z hz => h z (List.mem_cons_of_mem _ hz)), hthere, ite_self,
        if_pos List.mem_cons_self]

/-- The pages of the bindings of an object are those of the visuals that bind it. -/
theorem firstSeen_pages (vs : List Visual) (o : ObjectRef) :
    firstSeen (((vs.flatMap (·.bindings)).filter (·.binds o)).map (·.page)) =
      firstSeen ((vs.filter (·.bindsObject o)).map (·.page)) := by
  -- the pages met before are generalized, since a later visual may be on one of them
  suffices h : ∀ acc : List String,
      (((vs.flatMap (·.bindings)).filter (·.binds o)).map (·.page)).foldl addNew acc =
        ((vs.filter (·.bindsObject o)).map (·.page)).foldl addNew acc from h []
  induction vs with
  | nil => intro acc; rfl
  | cons v rest ih =>
      intro acc
      rw [List.flatMap_cons, List.filter_append, List.map_append, List.foldl_append,
        foldl_addNew_of_forall_eq (fun _ => Visual.eq_page_of_mem), ih, List.filter_cons]
      by_cases hv : v.bindsObject o = true
      · rw [if_pos (Visual.page_mem_iff.mpr hv), if_pos hv, List.map_cons, List.foldl_cons]
      · rw [if_neg (Visual.page_mem_iff.not.mpr hv), if_neg hv]

namespace Graph

variable {g : Graph} {key : Key}

/-- The bindings of a node are those of what its key spells. -/
theorem bindingsOf_key (g : Graph) (o : ObjectRef) :
    g.bindingsOf o.key = g.bindings.filter (·.binds o.spelled) := by
  rw [bindingsOf, ObjectRef.ofKey?_key]

variable (hbindings : g.bindings = vs.flatMap (·.bindings))
include hbindings

/-- The impact of a node lists the uses that visuals make of what its key spells. -/
theorem mem_visuals_impact (hkey : g.canonical o.key = o.key) :
    u ∈ (g.impact o.key).visuals ↔
      ∃ v ∈ vs, ∃ viaFilter, v.bindsVia o.spelled viaFilter = true ∧ v.use viaFilter = u := by
  rw [impact, hkey, bindingsOf_key, hbindings, mem_firstSeen, List.mem_map]
  simp only [← Visual.exists_bindings_iff, List.mem_filter, List.mem_flatMap]
  constructor
  · rintro ⟨b, ⟨⟨v, hv, hb⟩, hbinds⟩, hu⟩
    exact ⟨v, hv, b, hb, hbinds, hu⟩
  · rintro ⟨v, hv, b, hb, hbinds, hu⟩
    exact ⟨b, ⟨⟨v, hv, hb⟩, hbinds⟩, hu⟩

theorem pages_impact (hkey : g.canonical o.key = o.key) :
    (g.impact o.key).pages = firstSeen ((vs.filter (·.bindsObject o.spelled)).map (·.page)) := by
  rw [impact, hkey, bindingsOf_key, hbindings]
  exact firstSeen_pages vs o.spelled

theorem perm_visuals_impact_iff (hapart : IdsApart vs) (hkey : g.canonical o.key = o.key) :
    (g.impact o.key).visuals.Perm ((vs.filter (·.bindsObject o)).map (·.useOf o)) ↔
      BoundOneWay vs o := by
  have hlisted : (g.impact o.key).visuals.Nodup := nodup_firstSeen _
  rw [List.perm_ext_iff_of_nodup hlisted (nodup_map_useOf hapart)]
  simp only [mem_visuals_impact hbindings hkey, mem_map_useOf]
  rw [forall_use_iff hapart, boundOneWay_iff]

omit hbindings

/-- Whatever the catalog, the index and the rules, the impact of a node lists the visuals
that bind it, each once and with the mark it should have, and their pages, exactly when
the visuals bind the node in one way only and its key spells it. -/
theorem listsVisuals_impact_iff (c : Catalog) (index : Index) (rules : UsageRules)
    (vs : List Visual) (key : Key) (n : Node) (hapart : IdsApart vs)
    (hn : (reported c index rules (vs.flatMap (·.bindings))).nodes.get? key = some n) :
    let g := reported c index rules (vs.flatMap (·.bindings))
    ListsVisuals vs n.object (g.impact key) ↔ BoundOneWay vs n.object := by
  intro g
  have hbindings : g.bindings = vs.flatMap (·.bindings) := List.nil_append _
  obtain rfl : n.object.key = key := keyed_build c index key n hn
  have hkey : g.canonical n.object.key = n.object.key :=
    canonical_of_mem_keys (keyed_build c index) (SortedMap.mem_keys_iff.mpr ⟨n, hn⟩)
  rw [← perm_visuals_impact_iff hbindings hapart hkey]
  constructor
  · exact fun h => h.visuals
  · intro h
    refine ⟨h, ?_⟩
    have hbound := (perm_visuals_impact_iff hbindings hapart hkey).mp h
    rw [pages_impact hbindings hkey]
    exact congrArg (fun vs : List Visual => firstSeen (vs.map (·.page)))
      (List.filter_congr fun v hv => hbound.bindsObject_eq v hv)

/-- A catalog of one measure. -/
def oneTotal : Catalog where
  tables :=
    [{ name := "Sales"
       measures := [{ table := "Sales", name := "Total", expression := "1" }] }]

/-- The node of the measure. -/
def totalNode : Node := ⟨⟨"Sales", "Total"⟩, .measure, some "1", false, false⟩

/-- Visuals of two pages: one shows the total, one filters by it, and one does neither. -/
def totalOnce : List Visual :=
  [{ id := "v1", visualType := "card", page := "Overview"
     fields := { measures := [⟨"sales", "TOTAL"⟩] } },
   { id := "v2", page := "Overview", fields := { columns := [⟨"Sales", "Day"⟩] } },
   { id := "v1", page := "Details", filters := { measures := [⟨"Sales", "Total"⟩] } }]

/-- A visual that shows the total and filters by it. -/
def totalTwice : Visual where
  id := "v1"
  visualType := "card"
  page := "Overview"
  fields := { measures := [⟨"Sales", "Total"⟩] }
  filters := { measures := [⟨"Sales", "Total"⟩] }

theorem listsVisuals_totalOnce :
    let g := reported oneTotal (.ofCatalog oneTotal) {} (totalOnce.flatMap (·.bindings))
    IdsApart totalOnce ∧ g.nodes.get? "Sales[Total]" = some totalNode
      ∧ ListsVisuals totalOnce totalNode.object (g.impact "Sales[Total]") := by
  intro g
  have hapart : IdsApart totalOnce := by decide
  have hnode : g.nodes.get? "Sales[Total]" = some totalNode := by
    have hfirst : firstWithKey? oneTotal "Sales[Total]" = some totalNode := by decide +kernel
    exact (get?_nodes_build oneTotal (.ofCatalog oneTotal) _).trans hfirst
  have hbound : BoundOneWay totalOnce totalNode.object := by decide +kernel
  exact ⟨hapart, hnode, (listsVisuals_impact_iff oneTotal (.ofCatalog oneTotal) {} totalOnce
    "Sales[Total]" totalNode hapart hnode).mpr hbound⟩

/-- A measure of a table with a bracket in its name. -/
def bracketed : Catalog where
  tables :=
    [{ name := "T[X"
       measures := [{ table := "T[X", name := "Y", expression := "1" }] }]

/-- A visual that shows the measure. -/
def bracketedShown : Visual where
  id := "v1"
  visualType := "card"
  page := "Overview"
  fields := { measures := [⟨"T[X", "Y"⟩] }

theorem not_listsVisuals_impact :
    let g := (ofCatalog oneTotal).withBindings totalTwice.bindings
    let g' := (ofCatalog bracketed).withBindings bracketedShown.bindings
    ((g.impact "Sales[Total]").visuals = [totalTwice.use false, totalTwice.use true]
        ∧ ¬ ListsVisuals [totalTwice] ⟨"Sales", "Total"⟩ (g.impact "Sales[Total]"))
      ∧ (g'.impact "T[X[Y]").visuals = []
        ∧ ¬ ListsVisuals [bracketedShown] ⟨"T[X", "Y"⟩ (g'.impact "T[X[Y]") := by
  decide +kernel

end Graph

end Dependency

end Tabular
