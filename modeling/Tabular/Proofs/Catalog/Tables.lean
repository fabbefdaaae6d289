import Mathlib.Data.List.Find
import Mathlib.Data.List.Nodup
import Tabular.Catalog.OfDefinition
import Tabular.Proofs.Object

/-!
# The tables of a catalog that is built

Both ways to build a catalog change one table at a time, the first one with a name in
any case, and make a new one when there is none. No two tables of such a catalog have one
name, and whatever stands in a table is owned by it, under the table's own spelling.

In a catalog like this, an object is found by its table and its name where it is found
among all objects of its kind.
-/

namespace Tabular

open Definition Text

/-- A table that owns what stands in it. -/
structure Table.OwnsAll (t : Table) : Prop where
  measures : ∀ m ∈ t.measures, m.table = t.name
  columns : ∀ c ∈ t.columns, c.table = t.name

/-- Tables that differ in more than the case of their names, and own what stands in
them. -/
structure Orderly (ts : List Table) : Prop where
  apart : (ts.map fun t => fold t.name).Nodup
  owns : ∀ t ∈ ts, t.OwnsAll

/-- A change that leaves a table its name and what it owns. -/
structure KeepsOwner (change : Table → Table) : Prop where
  name : ∀ t, (change t).name = t.name
  owns : ∀ t, t.OwnsAll → (change t).OwnsAll

/-! ## One change -/

theorem mem_changeTable {name : String} {change : Table → Table} {ts : List Table} {t : Table}
    (h : t ∈ changeTable name change ts) :
    t ∈ ts ∨ ∃ s, (s ∈ ts ∨ s = { name }) ∧ t = change s := by
  induction ts with
  | nil => exact Or.inr ⟨_, Or.inr rfl, List.mem_singleton.mp h⟩
  | cons s ts ih =>
      rw [changeTable] at h
      split at h
      · rcases List.mem_cons.mp h with rfl | h
        · exact Or.inr ⟨s, Or.inl List.mem_cons_self, rfl⟩
        · exact Or.inl (List.mem_cons_of_mem s h)
      · rcases List.mem_cons.mp h with rfl | h
        · exact Or.inl List.mem_cons_self
        · rcases ih h with h | ⟨r, hr, rfl⟩
          · exact Or.inl (List.mem_cons_of_mem s h)
          · exact Or.inr ⟨r, hr.imp_left (List.mem_cons_of_mem s), rfl⟩

/-- The names stay, and a name that none of the tables has comes behind them. -/
theorem map_name_changeTable {name : String} {change : Table → Table}
    (hname : ∀ t, (change t).name = t.name) (ts : List Table) :
    (changeTable name change ts).map (fun t => fold t.name) =
      if fold name ∈ ts.map fun t => fold t.name then ts.map fun t => fold t.name
      else (ts.map fun t => fold t.name) ++ [fold name] := by
  induction ts with
  | nil => simp [changeTable, hname]
  | cons s ts ih =>
      rw [changeTable]
      by_cases hs : fold s.name = fold name
      · rw [if_pos (beq_iff_eq.mpr hs), List.map_cons, List.map_cons, hname,
          if_pos (List.mem_cons.mpr (Or.inl hs.symm))]
      · rw [if_neg fun heq => hs (beq_iff_eq.mp heq), List.map_cons, List.map_cons, ih]
        have hmem : fold name ∈ fold s.name :: ts.map (fun t => fold t.name) ↔
            fold name ∈ ts.map fun t => fold t.name :=
          List.mem_cons.trans (or_iff_right fun heq => hs heq.symm)
        by_cases hrest : fold name ∈ ts.map fun t => fold t.name
        · rw [if_pos hrest, if_pos (hmem.mpr hrest)]
        · rw [if_neg hrest, if_neg (hmem.not.mpr hrest), List.cons_append]

theorem ownsAll_new (name : String) : ({ name } : Table).OwnsAll where
  measures _ hm := absurd hm List.not_mem_nil
  columns _ hc := absurd hc List.not_mem_nil

namespace Orderly

variable {ts : List Table}

theorem nil : Orderly [] := ⟨List.nodup_nil, fun _ ht => absurd ht List.not_mem_nil⟩

theorem changeTable (h : Orderly ts) {change : Table → Table} (hchange : KeepsOwner change)
    (name : String) : Orderly (changeTable name change ts) where
  apart := by
    rw [map_name_changeTable hchange.name]
    split
    · exact h.apart
    · next hnew =>
        rw [← List.concat_eq_append]
        exact h.apart.concat hnew
  owns t ht := by
    rcases mem_changeTable ht with ht | ⟨s, hs | rfl, rfl⟩
    · exact h.owns t ht
    · exact hchange.owns s (h.owns s hs)
    · exact hchange.owns _ (ownsAll_new name)

/-- Tables stay in order through any number of changes. -/
theorem foldl_changeTable {α : Type} (h : Orderly ts) (name : α → String)
    {change : α → Table → Table} (hchange : ∀ x, KeepsOwner (change x)) (xs : List α) :
    Orderly (xs.foldl (fun ts x => Tabular.changeTable (name x) (change x) ts) ts) := by
  induction xs generalizing ts with
  | nil => exact h
  | cons x rest ih => exact ih (h.changeTable (hchange x) (name x))

/-- A table is known by its name, in any case. -/
theorem eq_of_fold_eq (h : Orderly ts) {s t : Table} (hs : s ∈ ts) (ht : t ∈ ts)
    (hname : fold s.name = fold t.name) : s = t := List.inj_on_of_nodup_map h.apart hs ht hname

end Orderly

/-! ## Catalogs of definitions -/

theorem keepsOwner_addTo (d : TableDecl) : KeepsOwner d.addTo where
  name _ := rfl
  owns t h := by
    refine ⟨fun m hm => ?_, fun c hc => ?_⟩
    · rcases List.mem_append.mp hm with hm | hm
      · exact h.measures m hm
      · obtain ⟨decl, -, rfl⟩ := List.mem_map.mp hm
        rfl
    · rcases List.mem_append.mp hc with hc | hc
      · exact h.columns c hc
      · obtain ⟨decl, -, rfl⟩ := List.mem_map.mp hc
        rfl

theorem orderly_ofDocuments (documents : List Node) :
    Orderly (Catalog.ofDocuments documents).tables :=
  Orderly.nil.foldl_changeTable Node.name (fun n => keepsOwner_addTo n.table) _

/-! ## Finding objects -/

/-- Objects that stand in tables are found among all of their kind. -/
theorem find?_flatMap_objects {α : Type} (objects : Table → List α) (ref : α → ObjectRef)
    {ts : List Table} (howner : ∀ t ∈ ts, ∀ x ∈ objects t, (ref x).table = t.name)
    (hapart : (ts.map fun t => fold t.name).Nodup) (table name : String) :
    ((ts.find? fun t => fold t.name == fold table).bind fun t =>
        (objects t).find? fun x => fold (ref x).name == fold name) =
      (ts.flatMap objects).find? fun x => (ref x).isNamed table name := by
  induction ts with
  | nil => rfl
  | cons t ts ih =>
      obtain ⟨hnew, hapart⟩ := List.nodup_cons.mp hapart
      obtain ⟨howner, hrest⟩ := List.forall_mem_cons.mp howner
      rw [List.find?_cons, List.flatMap_cons, List.find?_append]
      by_cases ht : fold t.name = fold table
      · -- no later table has the name
        have hlater : (ts.flatMap objects).find? (fun x => (ref x).isNamed table name) = none := by
          rw [List.find?_eq_none]
          intro x hx hnamed
          obtain ⟨s, hs, hxs⟩ := List.mem_flatMap.mp hx
          have htable := (ObjectRef.isNamed_iff.mp hnamed).1
          rw [hrest s hs x hxs, ← ht] at htable
          exact hnew (List.mem_map.mpr ⟨s, hs, htable⟩)
        have hhere : ∀ x ∈ objects t,
            (ref x).isNamed table name = (fold (ref x).name == fold name) := by
          intro x hx
          rw [ObjectRef.isNamed, howner x hx, beq_iff_eq.mpr ht, Bool.true_and]
        rw [beq_iff_eq.mpr ht, hlater, Option.or_none]
        exact (List.find?_congr hhere).symm
      · have hother : (objects t).find? (fun x => (ref x).isNamed table name) = none := by
          rw [List.find?_eq_none]
          intro x hx hnamed
          have htable := (ObjectRef.isNamed_iff.mp hnamed).1
          rw [howner x hx] at htable
          exact ht htable
        rw [beq_eq_false_iff_ne.mpr ht, hother, Option.none_or]
        exact ih hrest hapart

namespace Catalog

variable {c : Catalog}

theorem findMeasure?_eq (h : Orderly c.tables) (table name : String) :
    c.findMeasure? table name = c.measures.find? fun m => m.ref.isNamed table name := by
  rw [findMeasure?, findTable?, measures]
  exact find?_flatMap_objects Table.measures Measure.ref
    (fun t ht => (h.owns t ht).measures) h.apart table name

theorem findColumn?_eq (h : Orderly c.tables) (table name : String) :
    c.findColumn? table name = c.columns.find? fun col => col.ref.isNamed table name := by
  rw [findColumn?, findTable?, columns]
  exact find?_flatMap_objects Table.columns Column.ref
    (fun t ht => (h.owns t ht).columns) h.apart table name

end Catalog

end Tabular
