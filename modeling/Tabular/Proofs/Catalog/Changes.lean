import Tabular.Ordered.FirstSeen
import Tabular.Proofs.Catalog.Tables

/-!
# Tables that are changed one after the other

A catalog is built by changes, each of which names a table and alters the first one with
that name, or a new one. So a table is what the changes under its name make of a new
table, in their order. It has the spelling of the first of them; what they put behind its
parts stands there in a row; and of what they set, it keeps what was set last. The tables
themselves stand in the order in which they were named first.
-/

namespace Tabular

open Ordered Text

variable {α : Type} {name : α → String} {change : α → Table → Table}

theorem find?_changeTable {name : String} {change : Table → Table}
    (hname : ∀ t, (change t).name = t.name) (ts : List Table) (key : String) :
    (changeTable name change ts).find? (fun t => fold t.name == key) =
      if fold name = key then
        some (change ((ts.find? fun t => fold t.name == key).getD { name }))
      else ts.find? fun t => fold t.name == key := by
  induction ts with
  | nil =>
      rw [changeTable, List.find?_singleton, hname]
      simp
  | cons s rest ih =>
      rw [changeTable]
      by_cases hs : fold s.name = fold name
      · rw [if_pos (beq_iff_eq.mpr hs), List.find?_cons, List.find?_cons, hname, hs]
        by_cases hkey : fold name = key
        · simp [hkey]
        · rw [beq_eq_false_iff_ne.mpr hkey, if_neg hkey]
      · rw [if_neg fun heq => hs (beq_iff_eq.mp heq), List.find?_cons, List.find?_cons, ih]
        by_cases hkey : fold s.name = key
        · have hother : fold name ≠ key := fun heq => hs (hkey.trans heq.symm)
          rw [beq_iff_eq.mpr hkey]
          exact (if_neg hother).symm
        · rw [beq_eq_false_iff_ne.mpr hkey]

/-- The table with a name is changed by all changes under the name, in their order; the
first of them makes it if it is not there. -/
theorem find?_foldl_changeTable (hname : ∀ x t, (change x t).name = t.name) (xs : List α)
    (ts : List Table) (key : String) :
    (xs.foldl (fun ts x => changeTable (name x) (change x) ts) ts).find?
        (fun t => fold t.name == key) =
      (xs.filter fun x => fold (name x) == key).foldl
        (fun t x => some (change x (t.getD { name := name x })))
        (ts.find? fun t => fold t.name == key) := by
  induction xs generalizing ts with
  | nil => rfl
  | cons x rest ih =>
      rw [List.foldl_cons, ih, find?_changeTable (hname x), List.filter_cons]
      by_cases hkey : fold (name x) = key
      · rw [if_pos hkey, if_pos (beq_iff_eq.mpr hkey), List.foldl_cons]
      · rw [if_neg hkey, if_neg fun heq => hkey (beq_iff_eq.mp heq)]

theorem foldl_some (xs : List α) (t : Table) :
    xs.foldl (fun t x => some (change x (t.getD { name := name x }))) (some t) =
      some (xs.foldl (fun t x => change x t) t) := by
  induction xs generalizing t with
  | nil => rfl
  | cons x rest ih => exact ih (change x t)

/-- A table that is made by changes is made by those under its name, out of a new table
with the name of the first. -/
theorem exists_first_of_mem (hchange : ∀ x, KeepsOwner (change x)) {xs : List α} {t : Table}
    (ht : t ∈ xs.foldl (fun ts x => changeTable (name x) (change x) ts) []) :
    ∃ x rest, (xs.filter fun x => fold (name x) == fold t.name) = x :: rest
      ∧ t = (x :: rest).foldl (fun t x => change x t) { name := name x } := by
  have hname : ∀ x t, (change x t).name = t.name := fun x => (hchange x).name
  have horderly := Orderly.nil.foldl_changeTable name hchange xs
  obtain ⟨s, hs⟩ : ∃ s, (xs.foldl (fun ts x => changeTable (name x) (change x) ts) []).find?
      (fun s => fold s.name == fold t.name) = some s := by
    rw [← Option.isSome_iff_exists, List.find?_isSome]
    exact ⟨t, ht, beq_self_eq_true _⟩
  have hsame : (fold s.name == fold t.name) = true :=
    List.find?_some (p := fun s : Table => fold s.name == fold t.name) hs
  have hst : s = t := horderly.eq_of_fold_eq (List.mem_of_find?_eq_some hs) ht
    (beq_iff_eq.mp hsame)
  rw [find?_foldl_changeTable hname, hst, List.find?_nil] at hs
  cases hmine : xs.filter fun x => fold (name x) == fold t.name with
  | nil =>
      rw [hmine] at hs
      cases hs
  | cons x rest =>
      rw [hmine, List.foldl_cons, foldl_some] at hs
      exact ⟨x, rest, rfl, (Option.some.inj hs).symm⟩

/-- The tables stand in the order in which they were named first. -/
theorem map_name_foldl_changeTable (name : α → String)
    (hname : ∀ x t, (change x t).name = t.name) (xs : List α) (ts : List Table) :
    (xs.foldl (fun ts x => changeTable (name x) (change x) ts) ts).map (fun t => fold t.name) =
      (xs.map fun x => fold (name x)).foldl addNew (ts.map fun t => fold t.name) := by
  induction xs generalizing ts with
  | nil => rfl
  | cons x rest ih =>
      rw [List.foldl_cons, ih, map_name_changeTable (hname x), List.map_cons, List.foldl_cons]
      rfl

/-! ## What the changes of a table leave in it -/

theorem name_foldl (hname : ∀ x t, (change x t).name = t.name) (xs : List α) (t : Table) :
    (xs.foldl (fun t x => change x t) t).name = t.name := by
  induction xs generalizing t with
  | nil => rfl
  | cons x rest ih => exact (ih _).trans (hname x t)

/-- What each change puts behind the parts of a table stands there in their order. -/
theorem parts_foldl {β : Type} (parts : Table → List β) (added : String → α → List β)
    (hname : ∀ x t, (change x t).name = t.name)
    (hadded : ∀ x t, parts (change x t) = parts t ++ added t.name x) (xs : List α)
    (t : Table) :
    parts (xs.foldl (fun t x => change x t) t) = parts t ++ xs.flatMap (added t.name) := by
  induction xs generalizing t with
  | nil => exact (List.append_nil _).symm
  | cons x rest ih =>
      rw [List.foldl_cons, ih, hadded, hname, List.flatMap_cons, List.append_assoc]

/-- What some of the changes set is what the last of them set. -/
theorem field_foldl {β : Type} (field : Table → β) (given : α → Option β)
    (hgiven : ∀ x t, field (change x t) = (given x).getD (field t)) (xs : List α)
    (t : Table) :
    field (xs.foldl (fun t x => change x t) t) =
      (xs.filterMap given).getLast?.getD (field t) := by
  induction xs generalizing t with
  | nil => rfl
  | cons x rest ih =>
      rw [List.foldl_cons, ih, hgiven, List.filterMap_cons]
      cases given x with
      | none => rfl
      | some value => rw [List.getLast?_cons]; rfl

section Built

variable (hchange : ∀ x, KeepsOwner (change x)) {xs : List α} {t : Table}
  (ht : t ∈ xs.foldl (fun ts x => changeTable (name x) (change x) ts) [])

include hchange ht

/-- A table is spelled as the first change that names it spells it. -/
theorem spelling_of_mem :
    (xs.find? fun x => fold (name x) == fold t.name).map name = some t.name := by
  obtain ⟨x, rest, hmine, hmade⟩ := exists_first_of_mem hchange ht
  rw [← List.head?_filter, hmine, hmade, name_foldl fun x => (hchange x).name]
  rfl

theorem parts_of_mem {β : Type} (parts : Table → List β) (added : String → α → List β)
    (hnew : ∀ name, parts { name } = [])
    (hadded : ∀ x t, parts (change x t) = parts t ++ added t.name x) :
    parts t = (xs.filter fun x => fold (name x) == fold t.name).flatMap (added t.name) := by
  obtain ⟨x, rest, hmine, hmade⟩ := exists_first_of_mem hchange ht
  have hname : t.name = name x := by rw [hmade, name_foldl fun x => (hchange x).name]
  have hparts := parts_foldl parts added (fun x => (hchange x).name) hadded (x :: rest)
    { name := name x }
  rw [← hmade, hnew, List.nil_append, ← hmine, ← hname] at hparts
  exact hparts

theorem field_of_mem {β : Type} (field : Table → β) (given : α → Option β) (start : β)
    (hnew : ∀ name, field { name } = start)
    (hgiven : ∀ x t, field (change x t) = (given x).getD (field t)) :
    field t = ((xs.filter fun x => fold (name x) == fold t.name).filterMap
      given).getLast?.getD start := by
  obtain ⟨x, rest, hmine, hmade⟩ := exists_first_of_mem hchange ht
  have hfield := field_foldl field given hgiven (x :: rest) { name := name x }
  rw [← hmade, hnew, ← hmine] at hfield
  exact hfield

end Built

end Tabular
