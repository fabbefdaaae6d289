import Tabular.Catalog.Basic
import Tabular.Digest.Sha256
import Tabular.Json.Decode
import Tabular.Json.Writer

/-!
# Catalogs as JSON values

Each type of the catalog with the value that stands for it and the reading of such a
value. A value always has every field; when it is read, all but the names may be
missing. The fingerprint of a catalog is the digest of its value written without blanks,
so catalogs with one fingerprint are equal, as far as the digest can tell.
-/

namespace Tabular

open Json

open RecordField (needed spared)

namespace ObjectRef

/-- A reference as a value. -/
def encode (r : ObjectRef) : Value := .obj [("table", .str r.table), ("name", .str r.name)]

/-- The fields of a row that names an object, with the names that queries for metadata
give them. -/
def fields : List RecordField :=
  [⟨"table", ["Table", "TableName"], false⟩,
   ⟨"name", ["Name", "MeasureName", "ColumnName"], false⟩]

/-- The reference that a row spells. -/
def decode : Decoder ObjectRef := fun v => do
  let r ← Record.read? fields v
  return {
    table := ← r.required "table" Decode.string
    name := ← r.required "name" Decode.string }

end ObjectRef

namespace Column

/-- The fields of a column. -/
def fields : List RecordField :=
  [needed "table", needed "name", spared "data_type", spared "expression",
   spared "source_column", spared "is_hidden", spared "is_key", spared "display_folder",
   spared "format_string", spared "summarize_by", spared "sort_by_column",
   spared "description", spared "properties"]

/-- A column as a value. -/
def encode (c : Column) : Value :=
  .obj [
    ("table", .str c.table),
    ("name", .str c.name),
    ("data_type", Encode.string? c.dataType),
    ("expression", Encode.string? c.expression),
    ("source_column", Encode.string? c.sourceColumn),
    ("is_hidden", .bool c.isHidden),
    ("is_key", .bool c.isKey),
    ("display_folder", Encode.string? c.displayFolder),
    ("format_string", Encode.string? c.formatString),
    ("summarize_by", Encode.string? c.summarizeBy),
    ("sort_by_column", Encode.string? c.sortByColumn),
    ("description", Encode.string? c.description),
    ("properties", Encode.stringMap c.properties)]

/-- The column that a value spells. -/
def decode : Decoder Column := fun v => do
  let r ← Record.read? fields v
  return {
    table := ← r.required "table" Decode.string
    name := ← r.required "name" Decode.string
    dataType := ← r.optional "data_type" Decode.string
    expression := ← r.optional "expression" Decode.string
    sourceColumn := ← r.optional "source_column" Decode.string
    isHidden := ← r.orElse "is_hidden" Decode.bool false
    isKey := ← r.orElse "is_key" Decode.bool false
    displayFolder := ← r.optional "display_folder" Decode.string
    formatString := ← r.optional "format_string" Decode.string
    summarizeBy := ← r.optional "summarize_by" Decode.string
    sortByColumn := ← r.optional "sort_by_column" Decode.string
    description := ← r.optional "description" Decode.string
    properties := ← r.orElse "properties" Decode.stringMap ∅ }

end Column

namespace Measure

/-- The fields of a measure. -/
def fields : List RecordField :=
  [needed "table", needed "name", spared "expression", spared "display_folder",
   spared "format_string", spared "is_hidden", spared "description", spared "properties"]

/-- A measure as a value. -/
def encode (m : Measure) : Value :=
  .obj [
    ("table", .str m.table),
    ("name", .str m.name),
    ("expression", .str m.expression),
    ("display_folder", Encode.string? m.displayFolder),
    ("format_string", Encode.string? m.formatString),
    ("is_hidden", .bool m.isHidden),
    ("description", Encode.string? m.description),
    ("properties", Encode.stringMap m.properties)]

/-- The measure that a value spells. -/
def decode : Decoder Measure := fun v => do
  let r ← Record.read? fields v
  return {
    table := ← r.required "table" Decode.string
    name := ← r.required "name" Decode.string
    expression := ← r.orElse "expression" Decode.string ""
    displayFolder := ← r.optional "display_folder" Decode.string
    formatString := ← r.optional "format_string" Decode.string
    isHidden := ← r.orElse "is_hidden" Decode.bool false
    description := ← r.optional "description" Decode.string
    properties := ← r.orElse "properties" Decode.stringMap ∅ }

end Measure

namespace Partition

/-- The fields of a partition. -/
def fields : List RecordField :=
  [needed "name", spared "source_kind", spared "mode", spared "source"]

/-- A partition as a value. -/
def encode (p : Partition) : Value :=
  .obj [
    ("name", .str p.name),
    ("source_kind", Encode.string? p.sourceKind),
    ("mode", Encode.string? p.mode),
    ("source", Encode.string? p.source)]

/-- The partition that a value spells. -/
def decode : Decoder Partition := fun v => do
  let r ← Record.read? fields v
  return {
    name := ← r.required "name" Decode.string
    sourceKind := ← r.optional "source_kind" Decode.string
    mode := ← r.optional "mode" Decode.string
    source := ← r.optional "source" Decode.string }

end Partition

namespace HierarchyLevel

/-- A level as a value. -/
def encode (l : HierarchyLevel) : Value :=
  .obj [("name", .str l.name), ("column", Encode.string? l.column)]

/-- The level that a value spells. -/
def decode : Decoder HierarchyLevel := fun v => do
  let r ← Record.read? [needed "name", spared "column"] v
  return {
    name := ← r.required "name" Decode.string
    column := ← r.optional "column" Decode.string }

end HierarchyLevel

namespace Hierarchy

/-- A hierarchy as a value. -/
def encode (h : Hierarchy) : Value :=
  .obj [("name", .str h.name), ("levels", Encode.list HierarchyLevel.encode h.levels)]

/-- The hierarchy that a value spells. -/
def decode : Decoder Hierarchy := fun v => do
  let r ← Record.read? [needed "name", spared "levels"] v
  return {
    name := ← r.required "name" Decode.string
    levels := ← r.orElse "levels" (Decode.list HierarchyLevel.decode) [] }

end Hierarchy

namespace Table

/-- The fields of a table. -/
def fields : List RecordField :=
  [needed "name", spared "description", spared "is_hidden", spared "columns",
   spared "measures", spared "partitions", spared "hierarchies", spared "properties"]

/-- A table as a value. -/
def encode (t : Table) : Value :=
  .obj [
    ("name", .str t.name),
    ("description", Encode.string? t.description),
    ("is_hidden", .bool t.isHidden),
    ("columns", Encode.list Column.encode t.columns),
    ("measures", Encode.list Measure.encode t.measures),
    ("partitions", Encode.list Partition.encode t.partitions),
    ("hierarchies", Encode.list Hierarchy.encode t.hierarchies),
    ("properties", Encode.stringMap t.properties)]

/-- The table that a value spells. -/
def decode : Decoder Table := fun v => do
  let r ← Record.read? fields v
  return {
    name := ← r.required "name" Decode.string
    description := ← r.optional "description" Decode.string
    isHidden := ← r.orElse "is_hidden" Decode.bool false
    columns := ← r.orElse "columns" (Decode.list Column.decode) []
    measures := ← r.orElse "measures" (Decode.list Measure.decode) []
    partitions := ← r.orElse "partitions" (Decode.list Partition.decode) []
    hierarchies := ← r.orElse "hierarchies" (Decode.list Hierarchy.decode) []
    properties := ← r.orElse "properties" Decode.stringMap ∅ }

end Table

namespace CrossFilter

/-- A direction as a value. -/
def encode (d : CrossFilter) : Value := .str d.text

/-- The direction that a value spells. -/
def decode : Decoder CrossFilter := Decode.word names

end CrossFilter

namespace Relationship

/-- The fields of a relationship. -/
def fields : List RecordField :=
  [needed "name", needed "from_table", needed "from_column", needed "to_table",
   needed "to_column", spared "is_active", spared "cross_filter",
   spared "from_cardinality", spared "to_cardinality"]

/-- A relationship as a value. -/
def encode (r : Relationship) : Value :=
  .obj [
    ("name", .str r.name),
    ("from_table", .str r.fromTable),
    ("from_column", .str r.fromColumn),
    ("to_table", .str r.toTable),
    ("to_column", .str r.toColumn),
    ("is_active", .bool r.isActive),
    ("cross_filter", r.crossFilter.encode),
    ("from_cardinality", Encode.string? r.fromCardinality),
    ("to_cardinality", Encode.string? r.toCardinality)]

/-- The relationship that a value spells. -/
def decode : Decoder Relationship := fun v => do
  let r ← Record.read? fields v
  return {
    name := ← r.required "name" Decode.string
    fromTable := ← r.required "from_table" Decode.string
    fromColumn := ← r.required "from_column" Decode.string
    toTable := ← r.required "to_table" Decode.string
    toColumn := ← r.required "to_column" Decode.string
    isActive := ← r.orElse "is_active" Decode.bool true
    crossFilter := ← r.orElse "cross_filter" CrossFilter.decode .single
    fromCardinality := ← r.optional "from_cardinality" Decode.string
    toCardinality := ← r.optional "to_cardinality" Decode.string }

end Relationship

namespace NamedExpression

/-- The fields of a named expression. -/
def fields : List RecordField :=
  [needed "name", spared "expression", spared "is_parameter", spared "description",
   spared "properties"]

/-- A named expression as a value. -/
def encode (e : NamedExpression) : Value :=
  .obj [
    ("name", .str e.name),
    ("expression", .str e.expression),
    ("is_parameter", .bool e.isParameter),
    ("description", Encode.string? e.description),
    ("properties", Encode.stringMap e.properties)]

/-- The named expression that a value spells. -/
def decode : Decoder NamedExpression := fun v => do
  let r ← Record.read? fields v
  return {
    name := ← r.required "name" Decode.string
    expression := ← r.orElse "expression" Decode.string ""
    isParameter := ← r.orElse "is_parameter" Decode.bool false
    description := ← r.optional "description" Decode.string
    properties := ← r.orElse "properties" Decode.stringMap ∅ }

end NamedExpression

namespace TablePermission

/-- A permission as a value. -/
def encode (p : TablePermission) : Value :=
  .obj [("table", .str p.table), ("filter_expression", Encode.string? p.filterExpression)]

/-- The permission that a value spells. -/
def decode : Decoder TablePermission := fun v => do
  let r ← Record.read? [needed "table", spared "filter_expression"] v
  return {
    table := ← r.required "table" Decode.string
    filterExpression := ← r.optional "filter_expression" Decode.string }

end TablePermission

namespace Role

/-- A role as a value. -/
def encode (r : Role) : Value :=
  .obj [
    ("name", .str r.name),
    ("model_permission", Encode.string? r.modelPermission),
    ("table_permissions", Encode.list TablePermission.encode r.tablePermissions)]

/-- The role that a value spells. -/
def decode : Decoder Role := fun v => do
  let r ← Record.read?
    [needed "name", spared "model_permission", spared "table_permissions"] v
  return {
    name := ← r.required "name" Decode.string
    modelPermission := ← r.optional "model_permission" Decode.string
    tablePermissions := ←
      r.orElse "table_permissions" (Decode.list TablePermission.decode) [] }

end Role

namespace Catalog

/-- The fields of a catalog. -/
def fields : List RecordField :=
  [spared "name", spared "tables", spared "relationships", spared "expressions",
   spared "roles", spared "cultures"]

/-- A catalog as a value. -/
def encode (c : Catalog) : Value :=
  .obj [
    ("name", Encode.string? c.name),
    ("tables", Encode.list Table.encode c.tables),
    ("relationships", Encode.list Relationship.encode c.relationships),
    ("expressions", Encode.list NamedExpression.encode c.expressions),
    ("roles", Encode.list Role.encode c.roles),
    ("cultures", Encode.strings c.cultures)]

/-- The catalog that a value spells. -/
def decode : Decoder Catalog := fun v => do
  let r ← Record.read? fields v
  return {
    name := ← r.optional "name" Decode.string
    tables := ← r.orElse "tables" (Decode.list Table.decode) []
    relationships := ← r.orElse "relationships" (Decode.list Relationship.decode) []
    expressions := ← r.orElse "expressions" (Decode.list NamedExpression.decode) []
    roles := ← r.orElse "roles" (Decode.list Role.decode) []
    cultures := ← r.orElse "cultures" (Decode.list Decode.string) [] }

/-- The counts of a catalog as a value. -/
def Stats.encode (s : Stats) : Value :=
  .obj [
    ("tables", .nat s.tables),
    ("columns", .nat s.columns),
    ("calculated_columns", .nat s.calculatedColumns),
    ("measures", .nat s.measures),
    ("relationships", .nat s.relationships),
    ("expressions", .nat s.expressions)]

/-- The digest of a catalog, by which two snapshots are told apart. -/
def fingerprint (c : Catalog) : String := Digest.Sha256.hexDigest c.encode.compact

end Catalog

end Tabular
