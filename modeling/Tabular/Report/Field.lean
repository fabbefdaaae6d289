import Tabular.Json.Value
import Tabular.Ordered.SortedMap
import Tabular.Report.Basic

/-!
# Field expressions

The stored form of a visual names what it binds by expressions: a column or a measure
of an entity, an aggregation over such an expression, or a level of a hierarchy. An
entity is named directly, or through a source that the query around it declares.

`fieldRef?` finds what an expression stands for. The first of the known shapes that is
there decides; if it turns out to be incomplete, the expression stands for nothing.
-/

namespace Tabular.Report

open Json

/-- The entities that the sources of a query stand for. -/
abbrev Sources := Ordered.SortedMap String String

/-- A member that is a string. -/
def text? (v : Value) (key : String) : Option String := (v.get? key).bind Value.str?

/-- The entity that the source of an expression names. -/
def entity? (sources : Sources) (expression : Value) : Option String := do
  let source ← expression.get? "SourceRef"
  match text? source "Entity" with
  | some entity => some entity
  | none => (text? source "Source").bind sources.get?

/-- The property of an entity that a value names. -/
def property? (sources : Sources) (v : Value) : Option ObjectRef := do
  let name ← text? v "Property"
  let expression ← v.get? "Expression"
  return ⟨← entity? sources expression, name⟩

/-- The column that a level of a hierarchy shows. A hierarchy that was made for a column
by variation shows that column, and any other has a column for each level. -/
def levelColumn? (sources : Sources) (level : Value) : Option ObjectRef := do
  let expression ← level.path? ["Expression", "Hierarchy", "Expression"]
  match expression.get? "PropertyVariationSource" with
  | some variation => property? sources variation
  | none => return ⟨← entity? sources expression, ← text? level "Level"⟩

theorem sizeOf_lt_of_lookup {key : String} {members : List (String × Value)} {v : Value}
    (h : Value.lookup key members = some v) : sizeOf v < sizeOf members := by
  induction members with
  | nil => simp [Value.lookup] at h
  | cons m rest ih =>
      obtain ⟨k, w⟩ := m
      simp only [Value.lookup] at h
      split at h
      · simp only [Option.some.injEq] at h
        subst h
        simp only [List.cons.sizeOf_spec, Prod.mk.sizeOf_spec]
        omega
      · have := ih h
        simp only [List.cons.sizeOf_spec]
        omega

theorem sizeOf_lt_of_get? {key : String} {v w : Value} (h : v.get? key = some w) :
    sizeOf w < sizeOf v := by
  cases v with
  | obj members =>
      have := sizeOf_lt_of_lookup h
      simp only [Value.obj.sizeOf_spec]
      omega
  | _ => simp [Value.get?] at h

/-- What a field expression stands for. -/
def fieldRef? (sources : Sources) (field : Value) : Option FieldRef :=
  match field.get? "Column" with
  | some column => (property? sources column).map (⟨.column, ·⟩)
  | none =>
      match field.get? "Measure" with
      | some measure => (property? sources measure).map (⟨.measure, ·⟩)
      | none =>
          match h : field.get? "Aggregation" with
          | some aggregation =>
              have := sizeOf_lt_of_get? h
              match h' : aggregation.get? "Expression" with
              | some inner =>
                  have := sizeOf_lt_of_get? h'
                  fieldRef? sources inner
              | none => none
          | none =>
              (field.get? "HierarchyLevel").bind fun level =>
                (levelColumn? sources level).map (⟨.column, ·⟩)
termination_by sizeOf field

end Tabular.Report
