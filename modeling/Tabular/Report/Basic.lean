import Tabular.Object
import Tabular.Ordered.FirstSeen

/-!
# Reports

A report has pages, a page has visuals, and a visual shows columns and measures of a
model: some in the places it is made of, some only in its filters. A visual lists each
of them once, in the order in which it was first bound.
-/

namespace Tabular

/-- A measure or column that a visual binds. -/
structure FieldRef where
  kind : ObjectKind
  object : ObjectRef
  deriving DecidableEq, Inhabited, Repr

/-- The columns and measures that a visual binds. -/
structure VisualFields where
  columns : List ObjectRef := []
  measures : List ObjectRef := []
  deriving DecidableEq, Inhabited, Repr

/-- A visual of a page. -/
structure Visual where
  id : String
  /-- What sort of chart or control it is. -/
  visualType : String := ""
  /-- The page it stands on. -/
  page : String
  /-- What it shows. -/
  fields : VisualFields := {}
  /-- What its filters look at. -/
  filters : VisualFields := {}
  deriving DecidableEq, Inhabited, Repr

/-- A page of a report. -/
structure Page where
  /-- The name it is stored under. -/
  name : String
  /-- The name it is shown with. -/
  displayName : Option String := none
  visuals : List Visual := []
  deriving DecidableEq, Inhabited, Repr

/-- A report. -/
structure Report where
  pages : List Page := []
  deriving DecidableEq, Inhabited, Repr

namespace VisualFields

/-- Adds a field, unless it is there already. -/
def push (fs : VisualFields) (f : FieldRef) : VisualFields :=
  match f.kind with
  | .column => { fs with columns := Ordered.addNew fs.columns f.object }
  | .measure => { fs with measures := Ordered.addNew fs.measures f.object }

/-- The fields of a list, each once. -/
def ofList (fs : List FieldRef) : VisualFields := fs.foldl push {}

/-- The fields, columns first. -/
def toList (fs : VisualFields) : List FieldRef :=
  fs.columns.map (⟨.column, ·⟩) ++ fs.measures.map (⟨.measure, ·⟩)

/-- How many fields there are. -/
def size (fs : VisualFields) : Nat := fs.columns.length + fs.measures.length

/-- Whether there is no field. -/
def isEmpty (fs : VisualFields) : Bool := fs.columns.isEmpty && fs.measures.isEmpty

theorem mem_toList_push {fs : VisualFields} {f g : FieldRef} :
    g ∈ (fs.push f).toList ↔ g ∈ fs.toList ∨ g = f := by
  obtain ⟨kind, object⟩ := f
  obtain ⟨kind', object'⟩ := g
  cases kind <;> cases kind' <;> simp [push, toList, Ordered.mem_addNew]

theorem mem_toList_ofList {fs : List FieldRef} {f : FieldRef} :
    f ∈ (ofList fs).toList ↔ f ∈ fs := by
  suffices h : ∀ acc : VisualFields,
      f ∈ (fs.foldl push acc).toList ↔ f ∈ acc.toList ∨ f ∈ fs from
    (h {}).trans (by simp [toList])
  induction fs with
  | nil => simp
  | cons g rest ih => intro acc; simp [ih, mem_toList_push, or_assoc]

end VisualFields

namespace Page

/-- The name a page is known by: the one it is shown with, if there is one. -/
def label (p : Page) : String := p.displayName.getD p.name

end Page

namespace Report

/-- All visuals, page by page. -/
def visuals (r : Report) : List Visual := r.pages.flatMap (·.visuals)

/-- How many visuals there are. -/
def visualCount (r : Report) : Nat := r.visuals.length

end Report

end Tabular
