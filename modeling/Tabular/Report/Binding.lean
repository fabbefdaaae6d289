import Tabular.Catalog.Codec
import Tabular.Report.Basic

/-!
# What visuals bind

For the questions about a model, a report is the list of its bindings: one for each
field of each visual, first those that the visual shows and then those its filters look
at, and measures before columns in both.
-/

namespace Tabular

/-- A field that a visual binds. -/
structure Binding where
  visualId : String
  visualType : String
  page : String
  object : ObjectRef
  kind : ObjectKind
  /-- Whether it is a filter of the visual that binds the field. -/
  viaFilter : Bool := false
  deriving DecidableEq, Inhabited, Repr

namespace Binding

/-- Whether a binding is of an object, in any case. -/
def binds (b : Binding) (object : ObjectRef) : Bool := b.object.isNamed object.table object.name

/-- A binding as a value. -/
def encode (b : Binding) : Json.Value :=
  .obj [
    ("visual_id", .str b.visualId),
    ("visual_type", .str b.visualType),
    ("page", .str b.page),
    ("object", b.object.encode),
    ("kind", .str b.kind.text),
    ("via_filter", .bool b.viaFilter)]

end Binding

namespace Visual

/-- The bindings of one field list of a visual. -/
def bindingsOf (v : Visual) (viaFilter : Bool) (fields : VisualFields) : List Binding :=
  let bind (kind : ObjectKind) (object : ObjectRef) : Binding :=
    { visualId := v.id, visualType := v.visualType, page := v.page, object, kind, viaFilter }
  fields.measures.map (bind .measure) ++ fields.columns.map (bind .column)

/-- All bindings of a visual. -/
def bindings (v : Visual) : List Binding :=
  v.bindingsOf false v.fields ++ v.bindingsOf true v.filters

end Visual

/-- All bindings of a report. -/
def Report.bindings (r : Report) : List Binding := r.visuals.flatMap (·.bindings)

end Tabular
