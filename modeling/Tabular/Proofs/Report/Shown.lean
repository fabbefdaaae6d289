import Mathlib.Logic.Basic
import Tabular.Proofs.Ordered.SortedMap
import Tabular.Report.Stored

/-!
# The fields that a visual shows

What a stored expression denotes is said here by relations on values, apart from how it is
looked for: an expression denotes an object by the first of its four shapes that is there,
and an entity is named directly, or by an alias that the query gives it. A visual shows what
is denoted in the slots of its query or selected by the older query, and nothing else.

The fields that are listed are these, each once, in whatever state the rest of the body is.
Since an item is shown for what it denotes itself, one that denotes nothing adds nothing and
takes nothing away.
-/

namespace Tabular.Report

open Json

/-! ## What expressions denote -/

/-- The shapes of an expression, of which the first that is there decides. -/
def shapes : List String := ["Column", "Measure", "Aggregation", "HierarchyLevel"]

/-- The shape that decides what an expression denotes, with what stands under it. -/
def decidingShape? (field : Value) : Option (String × Value) :=
  shapes.findSome? fun shape => (field.get? shape).map (shape, ·)

section Denoted

variable (aliases : String → String → Prop)

/-- An expression names an entity by a source, which gives the entity itself or else an
alias of it. -/
inductive NamesEntity (expression : Value) : String → Prop where
  | direct {source : Value} {entity : String} :
      expression.get? "SourceRef" = some source →
      source.get? "Entity" = some (.str entity) →
      NamesEntity expression entity
  | byAlias {source : Value} {name entity : String} :
      expression.get? "SourceRef" = some source →
      (∀ other, source.get? "Entity" ≠ some (.str other)) →
      source.get? "Source" = some (.str name) →
      aliases name entity →
      NamesEntity expression entity

/-- A value names a property of an entity. -/
inductive NamesProperty (v : Value) : ObjectRef → Prop where
  | mk {name table : String} {expression : Value} :
      v.get? "Property" = some (.str name) →
      v.get? "Expression" = some expression →
      NamesEntity aliases expression table →
      NamesProperty v ⟨table, name⟩

/-- A level of a hierarchy shows the column that the hierarchy varies, or else the column
that the level is named after. -/
inductive ShowsLevel (level : Value) : ObjectRef → Prop where
  | varied {expression variation : Value} {column : ObjectRef} :
      level.path? ["Expression", "Hierarchy", "Expression"] = some expression →
      expression.get? "PropertyVariationSource" = some variation →
      NamesProperty aliases variation column →
      ShowsLevel level column
  | named {expression : Value} {table name : String} :
      level.path? ["Expression", "Hierarchy", "Expression"] = some expression →
      expression.get? "PropertyVariationSource" = none →
      NamesEntity aliases expression table →
      level.get? "Level" = some (.str name) →
      ShowsLevel level ⟨table, name⟩

/-- An expression denotes a column or a measure. -/
inductive Denotes : Value → FieldRef → Prop where
  | column {field v : Value} {o : ObjectRef} :
      decidingShape? field = some ("Column", v) →
      NamesProperty aliases v o →
      Denotes field ⟨.column, o⟩
  | measure {field v : Value} {o : ObjectRef} :
      decidingShape? field = some ("Measure", v) →
      NamesProperty aliases v o →
      Denotes field ⟨.measure, o⟩
  | aggregation {field v inner : Value} {r : FieldRef} :
      decidingShape? field = some ("Aggregation", v) →
      v.get? "Expression" = some inner →
      Denotes inner r →
      Denotes field r
  | level {field v : Value} {o : ObjectRef} :
      decidingShape? field = some ("HierarchyLevel", v) →
      ShowsLevel aliases v o →
      Denotes field ⟨.column, o⟩

end Denoted

/-! ## What a body shows -/

/-- An item gives an entity an alias. -/
def GivesAlias (item : Value) (name entity : String) : Prop :=
  item.get? "Name" = some (.str name) ∧ item.get? "Entity" = some (.str entity)

/-- The last of some items that give an alias to an entity gives it to this one. -/
def LastGives (items : List Value) (name entity : String) : Prop :=
  ∃ before item later, items = before ++ item :: later ∧ GivesAlias item name entity
    ∧ ∀ other ∈ later, ∀ e, ¬ GivesAlias other name e

/-- A query declares an alias of an entity. -/
def DeclaresAlias (query : Value) (name entity : String) : Prop :=
  ∃ items, query.get? "From" = some (.arr items) ∧ LastGives items name entity

/-- The older query of a body stands beside the other one, and only else inside of it. -/
def HasOlderQuery (body query : Value) : Prop :=
  body.get? "prototypeQuery" = some query
    ∨ (body.get? "prototypeQuery" = none
      ∧ body.path? ["query", "prototypeQuery"] = some query)

/-- A body shows a field. -/
inductive Shows (body : Value) : FieldRef → Prop where
  | projected {slot : String} {items : List Value} {item field : Value} {r : FieldRef} :
      slot ∈ slots →
      body.path? ["query", "queryState", slot, "projections"] = some (.arr items) →
      item ∈ items →
      item.get? "field" = some field →
      Denotes (fun _ _ => False) field r →
      Shows body r
  | selected {query item : Value} {items : List Value} {r : FieldRef} :
      HasOlderQuery body query →
      query.get? "Select" = some (.arr items) →
      item ∈ items →
      Denotes (DeclaresAlias query) item r →
      Shows body r

/-- Fields that list what a body shows, each once, and nothing else. -/
structure ListsShown (body : Value) (fs : VisualFields) : Prop where
  columns : ∀ o, o ∈ fs.columns ↔ Shows body ⟨.column, o⟩
  measures : ∀ o, o ∈ fs.measures ↔ Shows body ⟨.measure, o⟩
  columnsOnce : fs.columns.Nodup
  measuresOnce : fs.measures.Nodup

/-! ## Reading expressions -/

theorem str?_eq_some_iff {v : Value} {s : String} : v.str? = some s ↔ v = .str s := by
  cases v <;> simp [Value.str?]

theorem text?_eq_some_iff {v : Value} {key s : String} :
    text? v key = some s ↔ v.get? key = some (.str s) := by
  rw [text?, Option.bind_eq_some_iff]
  simp [str?_eq_some_iff]

theorem text?_eq_none_iff {v : Value} {key : String} :
    text? v key = none ↔ ∀ s, v.get? key ≠ some (.str s) := by
  rw [Option.eq_none_iff_forall_ne_some]
  simp [text?_eq_some_iff]

section Read

variable {sources : Sources} {aliases : String → String → Prop}

theorem entity?_eq_some_iff (h : ∀ a e, sources.get? a = some e ↔ aliases a e)
    {expression : Value} {entity : String} :
    entity? sources expression = some entity ↔ NamesEntity aliases expression entity := by
  constructor
  · intro hentity
    obtain ⟨source, hsource, hnamed⟩ := Option.bind_eq_some_iff.mp hentity
    cases hdirect : text? source "Entity" with
    | some e =>
        simp only [hdirect, Option.some.injEq] at hnamed
        subst hnamed
        exact .direct hsource (text?_eq_some_iff.mp hdirect)
    | none =>
        simp only [hdirect] at hnamed
        obtain ⟨a, ha, hget⟩ := Option.bind_eq_some_iff.mp hnamed
        exact .byAlias hsource (text?_eq_none_iff.mp hdirect) (text?_eq_some_iff.mp ha)
          ((h a entity).mp hget)
  · intro hnames
    cases hnames with
    | direct hsource hdirect =>
        rw [entity?, hsource]
        simp [text?_eq_some_iff.mpr hdirect]
    | byAlias hsource hdirect hname halias =>
        rw [entity?, hsource]
        simp [text?_eq_none_iff.mpr hdirect, text?_eq_some_iff.mpr hname, (h _ _).mpr halias]

theorem property?_eq_some_iff (h : ∀ a e, sources.get? a = some e ↔ aliases a e)
    {v : Value} {o : ObjectRef} :
    property? sources v = some o ↔ NamesProperty aliases v o := by
  constructor
  · intro hproperty
    obtain ⟨name, hname, hrest⟩ := Option.bind_eq_some_iff.mp hproperty
    obtain ⟨expression, hexpression, hrest⟩ := Option.bind_eq_some_iff.mp hrest
    obtain ⟨table, htable, ho⟩ := Option.bind_eq_some_iff.mp hrest
    obtain rfl := Option.some.inj ho
    exact .mk (text?_eq_some_iff.mp hname) hexpression ((entity?_eq_some_iff h).mp htable)
  · intro hnames
    cases hnames with
    | mk hname hexpression htable =>
        rw [property?, text?_eq_some_iff.mpr hname, hexpression]
        simp [(entity?_eq_some_iff h).mpr htable]

theorem levelColumn?_eq_some_iff (h : ∀ a e, sources.get? a = some e ↔ aliases a e)
    {level : Value} {o : ObjectRef} :
    levelColumn? sources level = some o ↔ ShowsLevel aliases level o := by
  constructor
  · intro hcolumn
    obtain ⟨expression, hexpression, hrest⟩ := Option.bind_eq_some_iff.mp hcolumn
    cases hvaried : expression.get? "PropertyVariationSource" with
    | some variation =>
        simp only [hvaried] at hrest
        exact .varied hexpression hvaried ((property?_eq_some_iff h).mp hrest)
    | none =>
        simp only [hvaried] at hrest
        obtain ⟨table, htable, hrest⟩ := Option.bind_eq_some_iff.mp hrest
        obtain ⟨name, hname, ho⟩ := Option.bind_eq_some_iff.mp hrest
        obtain rfl := Option.some.inj ho
        exact .named hexpression hvaried ((entity?_eq_some_iff h).mp htable)
          (text?_eq_some_iff.mp hname)
  · intro hshows
    cases hshows with
    | varied hexpression hvaried hproperty =>
        rw [levelColumn?, hexpression]
        simp [hvaried, (property?_eq_some_iff h).mpr hproperty]
    | named hexpression hvaried htable hname =>
        rw [levelColumn?, hexpression]
        simp [hvaried, (entity?_eq_some_iff h).mpr htable, text?_eq_some_iff.mpr hname]

/-- An expression denotes something in one of four ways. -/
theorem denotes_iff {field : Value} {r : FieldRef} :
    Denotes aliases field r ↔ ∃ v,
      (decidingShape? field = some ("Column", v)
          ∧ ∃ o, NamesProperty aliases v o ∧ ⟨.column, o⟩ = r)
        ∨ (decidingShape? field = some ("Measure", v)
          ∧ ∃ o, NamesProperty aliases v o ∧ ⟨.measure, o⟩ = r)
        ∨ (decidingShape? field = some ("Aggregation", v)
          ∧ ∃ inner, v.get? "Expression" = some inner ∧ Denotes aliases inner r)
        ∨ (decidingShape? field = some ("HierarchyLevel", v)
          ∧ ∃ o, ShowsLevel aliases v o ∧ ⟨.column, o⟩ = r) := by
  constructor
  · intro hdenotes
    cases hdenotes with
    | column hshape ho => exact ⟨_, .inl ⟨hshape, _, ho, rfl⟩⟩
    | measure hshape ho => exact ⟨_, .inr (.inl ⟨hshape, _, ho, rfl⟩)⟩
    | aggregation hshape hinner hr => exact ⟨_, .inr (.inr (.inl ⟨hshape, _, hinner, hr⟩))⟩
    | level hshape ho => exact ⟨_, .inr (.inr (.inr ⟨hshape, _, ho, rfl⟩))⟩
  · rintro ⟨v, ⟨hshape, o, ho, rfl⟩ | ⟨hshape, o, ho, rfl⟩ | ⟨hshape, inner, hinner, hr⟩
      | ⟨hshape, o, ho, rfl⟩⟩
    · exact .column hshape ho
    · exact .measure hshape ho
    · exact .aggregation hshape hinner hr
    · exact .level hshape ho

/-- What is found for an expression is what it denotes. -/
theorem fieldRef?_eq_some_iff (h : ∀ a e, sources.get? a = some e ↔ aliases a e)
    (field : Value) (r : FieldRef) :
    fieldRef? sources field = some r ↔ Denotes aliases field r := by
  fun_induction fieldRef? sources field with
  | case1 field column hcolumn =>
      have hshape : decidingShape? field = some ("Column", column) := by
        simp [decidingShape?, shapes, hcolumn]
      rw [denotes_iff]
      simp [hshape, property?_eq_some_iff h]
  | case2 field hcolumn measure hmeasure =>
      have hshape : decidingShape? field = some ("Measure", measure) := by
        simp [decidingShape?, shapes, hcolumn, hmeasure]
      rw [denotes_iff]
      simp [hshape, property?_eq_some_iff h]
  | case3 field hcolumn hmeasure aggregation haggregation _ inner hinner _ ih =>
      have hshape : decidingShape? field = some ("Aggregation", aggregation) := by
        simp [decidingShape?, shapes, hcolumn, hmeasure, haggregation]
      rw [ih, (denotes_iff : Denotes aliases field r ↔ _)]
      simp [hshape, hinner]
  | case4 field hcolumn hmeasure aggregation haggregation _ hinner =>
      have hshape : decidingShape? field = some ("Aggregation", aggregation) := by
        simp [decidingShape?, shapes, hcolumn, hmeasure, haggregation]
      rw [denotes_iff]
      simp [hshape, hinner]
  | case5 field hcolumn hmeasure haggregation =>
      have hshape : decidingShape? field =
          (field.get? "HierarchyLevel").map ("HierarchyLevel", ·) := by
        cases hlevel : field.get? "HierarchyLevel" with
        | none => simp [decidingShape?, shapes, hcolumn, hmeasure, haggregation, hlevel]
        | some level => simp [decidingShape?, shapes, hcolumn, hmeasure, haggregation, hlevel]
      rw [denotes_iff]
      simp [hshape, Option.bind_eq_some_iff, levelColumn?_eq_some_iff h]

end Read

/-! ## Reading a body -/

theorem source?_eq_some_iff {item : Value} {name entity : String} :
    source? item = some (name, entity) ↔ GivesAlias item name entity := by
  simp [source?, GivesAlias, Option.bind_eq_some_iff, text?_eq_some_iff]

theorem any_source?_iff {item : Value} {name : String} :
    (source? item).any (·.1 = name) = true ↔ ∃ e, GivesAlias item name e := by
  rw [Option.any_eq_true]
  constructor
  · rintro ⟨⟨n, e⟩, hsource, hname⟩
    obtain rfl := of_decide_eq_true hname
    exact ⟨e, source?_eq_some_iff.mp hsource⟩
  · rintro ⟨e, hgives⟩
    exact ⟨(name, e), source?_eq_some_iff.mpr hgives, decide_eq_true rfl⟩

theorem lastGives_iff {items : List Value} {name entity : String} :
    ((items.reverse.find? fun item => (source? item).any (·.1 = name)).bind source?).map (·.2) =
        some entity ↔
      LastGives items name entity := by
  constructor
  · intro hlast
    obtain ⟨⟨n, e⟩, hbind, rfl⟩ := Option.map_eq_some_iff.mp hlast
    obtain ⟨item, hfind, hsource⟩ := Option.bind_eq_some_iff.mp hbind
    obtain ⟨htest, later, before, hsplit, hnone⟩ := List.find?_eq_some_iff_append.mp hfind
    obtain ⟨e', hgives⟩ := any_source?_iff.mp htest
    rw [source?_eq_some_iff.mpr hgives] at hsource
    cases hsource
    -- the search runs backwards, so what it passed over stands behind
    refine ⟨before.reverse, item, later.reverse, ?_, hgives, ?_⟩
    · rw [← List.reverse_inj, hsplit]
      simp
    · intro other hother e hother'
      have hnot := hnone other (List.mem_reverse.mp hother)
      rw [any_source?_iff.mpr ⟨e, hother'⟩] at hnot
      exact Bool.false_ne_true hnot
  · rintro ⟨before, item, later, rfl, hgives, hlast⟩
    have hfind : (before ++ item :: later).reverse.find?
        (fun item => (source? item).any (·.1 = name)) = some item := by
      refine List.find?_eq_some_iff_append.mpr ⟨any_source?_iff.mpr ⟨_, hgives⟩,
        later.reverse, before.reverse, by simp, ?_⟩
      intro other hother
      rw [Bool.not_eq_true', ← Bool.not_eq_true, any_source?_iff]
      rintro ⟨e, hother'⟩
      exact hlast other (List.mem_reverse.mp hother) e hother'
    rw [hfind, Option.bind_some, source?_eq_some_iff.mpr hgives]
    rfl

theorem path?_singleton (v : Value) (key : String) : v.path? [key] = v.get? key := by
  simp [Value.path?]

theorem itemsAt_eq {v : Value} {path : List String} {items : List Value}
    (h : v.path? path = some (.arr items)) : itemsAt v path = items := by
  rw [itemsAt, h]
  rfl

theorem exists_of_mem_itemsAt {v : Value} {path : List String} {item : Value}
    (h : item ∈ itemsAt v path) : ∃ items, v.path? path = some (.arr items) ∧ item ∈ items := by
  rw [itemsAt] at h
  cases hpath : v.path? path with
  | none => simp [hpath] at h
  | some w =>
      rw [hpath] at h
      cases w with
      | arr items => exact ⟨items, rfl, h⟩
      | null | bool _ | int _ | decimal _ _ | str _ | obj _ | unreadable => simp [Value.items] at h

theorem declaresAlias_iff {query : Value} {name entity : String} :
    LastGives (itemsAt query ["From"]) name entity ↔ DeclaresAlias query name entity := by
  constructor
  · intro hlast
    have hitem : ∃ item, item ∈ itemsAt query ["From"] := by
      obtain ⟨before, item, later, hsplit, -⟩ := hlast
      exact ⟨item, by simp [hsplit]⟩
    obtain ⟨item, hmem⟩ := hitem
    obtain ⟨items, hitems, -⟩ := exists_of_mem_itemsAt hmem
    rw [itemsAt_eq hitems] at hlast
    exact ⟨items, by rw [← path?_singleton, hitems], hlast⟩
  · rintro ⟨items, hitems, hlast⟩
    rwa [itemsAt_eq (by rw [path?_singleton, hitems])]

/-- The last item that gives an alias to an entity is the one that counts. -/
theorem get?_sourcesOf (query : Value) (name entity : String) :
    (sourcesOf query).get? name = some entity ↔ DeclaresAlias query name entity := by
  rw [← declaresAlias_iff, ← lastGives_iff, sourcesOf, Ordered.SortedMap.ofList,
    Ordered.SortedMap.get?_foldl_insert, ← List.filterMap_reverse, List.find?_filterMap,
    Ordered.SortedMap.get?_empty, Option.or_none]

theorem mem_boundFields_iff {holders : List Value} {r : FieldRef} :
    r ∈ boundFields holders ↔
      ∃ item ∈ holders, ∃ field, item.get? "field" = some field
        ∧ Denotes (fun _ _ => False) field r := by
  have hnone : ∀ a e, (∅ : Sources).get? a = some e ↔ False := by simp
  simp only [boundFields, List.mem_filterMap, Option.bind_eq_some_iff,
    fieldRef?_eq_some_iff hnone]

theorem olderQuery?_eq_some_iff {body query : Value} :
    olderQuery? body = some query ↔ HasOlderQuery body query := by
  rw [olderQuery?, Option.or_eq_some_iff]
  rfl

theorem mem_slotFields_iff {body : Value} {r : FieldRef} :
    r ∈ slotFields body ↔ ∃ slot ∈ slots, ∃ items,
      body.path? ["query", "queryState", slot, "projections"] = some (.arr items)
        ∧ ∃ item ∈ items, ∃ field, item.get? "field" = some field
          ∧ Denotes (fun _ _ => False) field r := by
  rw [slotFields, List.mem_flatMap]
  refine exists_congr fun slot => and_congr_right fun _ => ?_
  rw [mem_boundFields_iff]
  constructor
  · rintro ⟨item, hitem, hfield⟩
    obtain ⟨items, hitems, hmem⟩ := exists_of_mem_itemsAt hitem
    exact ⟨items, hitems, item, hmem, hfield⟩
  · rintro ⟨items, hitems, item, hmem, hfield⟩
    exact ⟨item, by rwa [itemsAt_eq hitems], hfield⟩

theorem mem_selectedFields_iff {body : Value} {r : FieldRef} :
    r ∈ selectedFields body ↔ ∃ query items, HasOlderQuery body query
      ∧ query.get? "Select" = some (.arr items)
      ∧ ∃ item ∈ items, Denotes (DeclaresAlias query) item r := by
  have hquery : r ∈ selectedFields body ↔ ∃ query, olderQuery? body = some query
      ∧ ∃ item ∈ itemsAt query ["Select"], fieldRef? (sourcesOf query) item = some r := by
    rw [selectedFields]
    cases olderQuery? body with
    | none => simp
    | some query => simp
  rw [hquery]
  refine exists_congr fun query => ?_
  simp only [olderQuery?_eq_some_iff, fieldRef?_eq_some_iff (get?_sourcesOf query)]
  constructor
  · rintro ⟨holder, item, hitem, hr⟩
    obtain ⟨items, hitems, hmem⟩ := exists_of_mem_itemsAt hitem
    exact ⟨items, holder, by rw [← path?_singleton, hitems], item, hmem, hr⟩
  · rintro ⟨items, holder, hitems, item, hmem, hr⟩
    exact ⟨holder, item, by rwa [itemsAt_eq (by rw [path?_singleton, hitems])], hr⟩

theorem mem_fields_iff {body : Value} {r : FieldRef} :
    r ∈ slotFields body ++ selectedFields body ↔ Shows body r := by
  rw [List.mem_append, mem_slotFields_iff, mem_selectedFields_iff]
  constructor
  · rintro (⟨slot, hslot, items, hitems, item, hmem, field, hfield, hr⟩
      | ⟨query, items, holder, hitems, item, hmem, hr⟩)
    · exact .projected hslot hitems hmem hfield hr
    · exact .selected holder hitems hmem hr
  · intro hshows
    cases hshows with
    | projected hslot hitems hmem hfield hr =>
        exact .inl ⟨_, hslot, _, hitems, _, hmem, _, hfield, hr⟩
    | selected holder hitems hmem hr => exact .inr ⟨_, _, holder, hitems, _, hmem, hr⟩

/-- Fields that are pushed one after the other are listed once. -/
theorem nodup_ofList (fs : List FieldRef) :
    (VisualFields.ofList fs).columns.Nodup ∧ (VisualFields.ofList fs).measures.Nodup := by
  suffices h : ∀ acc : VisualFields, acc.columns.Nodup → acc.measures.Nodup →
      (fs.foldl VisualFields.push acc).columns.Nodup
        ∧ (fs.foldl VisualFields.push acc).measures.Nodup from
    h {} List.nodup_nil List.nodup_nil
  induction fs with
  | nil => exact fun acc hcolumns hmeasures => ⟨hcolumns, hmeasures⟩
  | cons f rest ih =>
      intro acc hcolumns hmeasures
      obtain ⟨kind, object⟩ := f
      cases kind with
      | column => exact ih _ (Ordered.nodup_addNew hcolumns) hmeasures
      | measure => exact ih _ hcolumns (Ordered.nodup_addNew hmeasures)

/-- Of every body the fields that it shows are listed, each once, and no others. -/
theorem listsShown_shownFields (body : Value) : ListsShown body (shownFields body) := by
  have hlist : ∀ r : FieldRef, r ∈ (shownFields body).toList ↔ Shows body r := fun r =>
    VisualFields.mem_toList_ofList.trans mem_fields_iff
  have hnodup := nodup_ofList (slotFields body ++ selectedFields body)
  refine ⟨fun o => ?_, fun o => ?_, hnodup.1, hnodup.2⟩
  · rw [← hlist]
    simp [VisualFields.toList]
  · rw [← hlist]
    simp [VisualFields.toList]

/-- An entry without an entity leaves the alias to the one before it. -/
example :
    let source := fun name : String => Value.obj [("SourceRef", .obj [("Source", .str name)])]
    let column := fun table name : String =>
      Value.obj [("Column", .obj [("Expression", source table), ("Property", .str name)])]
    let sources := [.obj [("Name", .str "s"), ("Entity", .str "Sales")], .obj [("Name", .str "s")]]
    let selected := [column "s" "Amount", column "d" "Year", column "s" "Amount"]
    shownFields (.obj [("prototypeQuery",
      .obj [("From", .arr sources), ("Select", .arr selected)])]) =
      { columns := [⟨"Sales", "Amount"⟩] } := by
  cbv

end Tabular.Report
