import Tabular.Json.Decode
import Tabular.Report.Basic

/-!
# Reports as JSON values

Each type of a report with the value that stands for it and the reading of such a value.
A column is written with its name under `column`, a measure with its name under
`measure`, and neither takes the place of the other.
-/

namespace Tabular

open Json

open RecordField (needed spared)

namespace VisualFields

/-- An object with the word that its name stands under. -/
def encodeObject (kind : ObjectKind) (r : ObjectRef) : Value :=
  .obj [("table", .str r.table), (kind.text, .str r.name)]

/-- The object whose name a value gives under a word. -/
def decodeObject (kind : ObjectKind) : Decoder ObjectRef := fun v => do
  let r ← Record.read? [needed "table", needed kind.text] v
  return {
    table := ← r.required "table" Decode.string
    name := ← r.required kind.text Decode.string }

/-- Fields as a value. -/
def encode (fs : VisualFields) : Value :=
  .obj [
    ("columns", Encode.list (encodeObject .column) fs.columns),
    ("measures", Encode.list (encodeObject .measure) fs.measures)]

/-- The fields that a value spells. -/
def decode : Decoder VisualFields := fun v => do
  let r ← Record.read? [spared "columns", spared "measures"] v
  return {
    columns := ← r.orElse "columns" (Decode.list (decodeObject .column)) []
    measures := ← r.orElse "measures" (Decode.list (decodeObject .measure)) [] }

end VisualFields

namespace Visual

/-- The fields of a visual. -/
def recordFields : List RecordField :=
  [needed "id", spared "visual_type", needed "page", spared "fields", spared "filters"]

/-- A visual as a value. -/
def encode (v : Visual) : Value :=
  .obj [
    ("id", .str v.id),
    ("visual_type", .str v.visualType),
    ("page", .str v.page),
    ("fields", v.fields.encode),
    ("filters", v.filters.encode)]

/-- The visual that a value spells. -/
def decode : Decoder Visual := fun v => do
  let r ← Record.read? recordFields v
  return {
    id := ← r.required "id" Decode.string
    visualType := ← r.orElse "visual_type" Decode.string ""
    page := ← r.required "page" Decode.string
    fields := ← r.orElse "fields" VisualFields.decode {}
    filters := ← r.orElse "filters" VisualFields.decode {} }

end Visual

namespace Page

/-- The fields of a page. -/
def recordFields : List RecordField := [needed "name", spared "display_name", spared "visuals"]

/-- A page as a value. -/
def encode (p : Page) : Value :=
  .obj [
    ("name", .str p.name),
    ("display_name", Encode.string? p.displayName),
    ("visuals", Encode.list Visual.encode p.visuals)]

/-- The page that a value spells. -/
def decode : Decoder Page := fun v => do
  let r ← Record.read? recordFields v
  return {
    name := ← r.required "name" Decode.string
    displayName := ← r.optional "display_name" Decode.string
    visuals := ← r.orElse "visuals" (Decode.list Visual.decode) [] }

end Page

namespace Report

/-- A report as a value. -/
def encode (r : Report) : Value := .obj [("pages", Encode.list Page.encode r.pages)]

/-- The report that a value spells. -/
def decode : Decoder Report := fun v => do
  let r ← Record.read? [spared "pages"] v
  return { pages := ← r.orElse "pages" (Decode.list Page.decode) [] }

end Report

end Tabular
