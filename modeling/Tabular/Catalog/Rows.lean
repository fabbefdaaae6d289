import Tabular.Catalog.Codec
import Tabular.Catalog.Loaded
import Tabular.Json.Reader
import Tabular.Text.Quote

/-!
# The catalog of metadata rows

A running engine describes a model by rows, one for each table, column, measure and
relationship. Fields go by their own names or by those that metadata queries use. A table
need not have a row: the first row that names it makes it. A row without an owner or a
name is left out and reported.
-/

namespace Tabular

open Json Text

/-- A row for a table. -/
structure TableRow where
  name : String
  isHidden : Bool := false
  description : Option String := none
  deriving DecidableEq, Inhabited

/-- A row for a column. -/
structure ColumnRow where
  table : String
  name : String
  dataType : Option String := none
  /-- The formula of a calculated column. -/
  expression : Option String := none
  isHidden : Bool := false
  isKey : Bool := false
  deriving DecidableEq, Inhabited

/-- A row for a measure. -/
structure MeasureRow where
  table : String
  name : String
  expression : String := ""
  isHidden : Bool := false
  displayFolder : Option String := none
  formatString : Option String := none
  description : Option String := none
  deriving DecidableEq, Inhabited

/-- A row for a relationship. -/
structure RelationshipRow where
  name : String := ""
  fromTable : String
  fromColumn : String
  toTable : String
  toColumn : String
  isActive : Bool := true
  crossFilter : Option String := none
  deriving DecidableEq, Inhabited

/-- All rows that describe a model. -/
structure MetadataRows where
  tables : List TableRow := []
  columns : List ColumnRow := []
  measures : List MeasureRow := []
  relationships : List RelationshipRow := []
  deriving DecidableEq, Inhabited

namespace TableRow

/-- The fields of a row for a table. -/
def fields : List RecordField :=
  [⟨"name", ["Name", "TableName"], false⟩, ⟨"is_hidden", ["IsHidden"], true⟩,
   ⟨"description", ["Description"], true⟩]

/-- A row as a value. -/
def encode (r : TableRow) : Value :=
  .obj [("name", .str r.name), ("is_hidden", .bool r.isHidden),
    ("description", Encode.string? r.description)]

/-- The row that a value spells. -/
def decode : Decoder TableRow := fun v => do
  let r ← Record.read? fields v
  return {
    name := ← r.required "name" Decode.string
    isHidden := ← r.orElse "is_hidden" Decode.bool false
    description := ← r.optional "description" Decode.string }

end TableRow

namespace ColumnRow

/-- The fields of a row for a column. -/
def fields : List RecordField :=
  [⟨"table", ["Table", "TableName"], false⟩, ⟨"name", ["Name", "ColumnName"], false⟩,
   ⟨"data_type", ["DataType"], true⟩, ⟨"expression", ["Expression"], true⟩,
   ⟨"is_hidden", ["IsHidden"], true⟩, ⟨"is_key", ["IsKey"], true⟩]

/-- A row as a value. -/
def encode (r : ColumnRow) : Value :=
  .obj [("table", .str r.table), ("name", .str r.name),
    ("data_type", Encode.string? r.dataType), ("expression", Encode.string? r.expression),
    ("is_hidden", .bool r.isHidden), ("is_key", .bool r.isKey)]

/-- The row that a value spells. -/
def decode : Decoder ColumnRow := fun v => do
  let r ← Record.read? fields v
  return {
    table := ← r.required "table" Decode.string
    name := ← r.required "name" Decode.string
    dataType := ← r.optional "data_type" Decode.string
    expression := ← r.optional "expression" Decode.string
    isHidden := ← r.orElse "is_hidden" Decode.bool false
    isKey := ← r.orElse "is_key" Decode.bool false }

end ColumnRow

namespace MeasureRow

/-- The fields of a row for a measure. -/
def fields : List RecordField :=
  [⟨"table", ["Table", "TableName"], false⟩, ⟨"name", ["Name", "MeasureName"], false⟩,
   ⟨"expression", ["Expression"], true⟩, ⟨"is_hidden", ["IsHidden"], true⟩,
   ⟨"display_folder", ["DisplayFolder"], true⟩, ⟨"format_string", ["FormatString"], true⟩,
   ⟨"description", ["Description"], true⟩]

/-- A row as a value. -/
def encode (r : MeasureRow) : Value :=
  .obj [("table", .str r.table), ("name", .str r.name), ("expression", .str r.expression),
    ("is_hidden", .bool r.isHidden), ("display_folder", Encode.string? r.displayFolder),
    ("format_string", Encode.string? r.formatString),
    ("description", Encode.string? r.description)]

/-- The row that a value spells. -/
def decode : Decoder MeasureRow := fun v => do
  let r ← Record.read? fields v
  return {
    table := ← r.required "table" Decode.string
    name := ← r.required "name" Decode.string
    expression := ← r.orElse "expression" Decode.string ""
    isHidden := ← r.orElse "is_hidden" Decode.bool false
    displayFolder := ← r.optional "display_folder" Decode.string
    formatString := ← r.optional "format_string" Decode.string
    description := ← r.optional "description" Decode.string }

end MeasureRow

namespace RelationshipRow

/-- The fields of a row for a relationship. -/
def fields : List RecordField :=
  [⟨"name", ["Name"], true⟩, ⟨"from_table", ["FromTable", "FromTableName"], false⟩,
   ⟨"from_column", ["FromColumn", "FromColumnName"], false⟩,
   ⟨"to_table", ["ToTable", "ToTableName"], false⟩,
   ⟨"to_column", ["ToColumn", "ToColumnName"], false⟩, ⟨"is_active", ["IsActive"], true⟩,
   ⟨"cross_filter", ["CrossFilteringBehavior"], true⟩]

/-- A row as a value. -/
def encode (r : RelationshipRow) : Value :=
  .obj [("name", .str r.name), ("from_table", .str r.fromTable),
    ("from_column", .str r.fromColumn), ("to_table", .str r.toTable),
    ("to_column", .str r.toColumn), ("is_active", .bool r.isActive),
    ("cross_filter", Encode.string? r.crossFilter)]

/-- The row that a value spells. -/
def decode : Decoder RelationshipRow := fun v => do
  let r ← Record.read? fields v
  return {
    name := ← r.orElse "name" Decode.string ""
    fromTable := ← r.required "from_table" Decode.string
    fromColumn := ← r.required "from_column" Decode.string
    toTable := ← r.required "to_table" Decode.string
    toColumn := ← r.required "to_column" Decode.string
    isActive := ← r.orElse "is_active" Decode.bool true
    crossFilter := ← r.optional "cross_filter" Decode.string }

/-- The relationship of a row. -/
def toRelationship (r : RelationshipRow) : Relationship where
  name := r.name
  fromTable := r.fromTable
  fromColumn := r.fromColumn
  toTable := r.toTable
  toColumn := r.toColumn
  isActive := r.isActive
  crossFilter := (r.crossFilter.map CrossFilter.ofDefinition).getD .single

end RelationshipRow

namespace MetadataRows

/-- The fields of a set of rows. -/
def fields : List RecordField :=
  [⟨"tables", ["Tables"], true⟩, ⟨"columns", ["Columns"], true⟩,
   ⟨"measures", ["Measures"], true⟩, ⟨"relationships", ["Relationships"], true⟩]

/-- A set of rows as a value. -/
def encode (r : MetadataRows) : Value :=
  .obj [("tables", Encode.list TableRow.encode r.tables),
    ("columns", Encode.list ColumnRow.encode r.columns),
    ("measures", Encode.list MeasureRow.encode r.measures),
    ("relationships", Encode.list RelationshipRow.encode r.relationships)]

/-- The set of rows that a value spells. -/
def decode : Decoder MetadataRows := fun v => do
  let r ← Record.read? fields v
  return {
    tables := ← r.orElse "tables" (Decode.list TableRow.decode) []
    columns := ← r.orElse "columns" (Decode.list ColumnRow.decode) []
    measures := ← r.orElse "measures" (Decode.list MeasureRow.decode) []
    relationships := ← r.orElse "relationships" (Decode.list RelationshipRow.decode) [] }

/-- The set of rows that a text spells. -/
def ofText? (text : String) : Option MetadataRows := (Json.read? text).bind decode

/-- Whether a row for a column or a measure lacks its owner or its name. -/
def lacksName (table name : String) : Bool := blank table || blank name

/-- Enters a row for a table; of several rows for one table the last one wins. -/
def addTableRow (tables : List Table) (r : TableRow) : List Table :=
  changeTable r.name
    (fun t => { t with isHidden := r.isHidden, description := r.description }) tables

/-- Enters a row for a column, which its table owns under the table's own spelling. -/
def addColumnRow (tables : List Table) (r : ColumnRow) : List Table :=
  changeTable r.table
    (fun t => { t with columns := t.columns ++ [{
      table := t.name, name := r.name, dataType := r.dataType,
      expression := r.expression.filter (!blank ·),
      isHidden := r.isHidden, isKey := r.isKey }] }) tables

/-- Enters a row for a measure, which its table owns under the table's own spelling. -/
def addMeasureRow (tables : List Table) (r : MeasureRow) : List Table :=
  changeTable r.table
    (fun t => { t with measures := t.measures ++ [{
      table := t.name, name := r.name, expression := r.expression,
      displayFolder := r.displayFolder, formatString := r.formatString,
      isHidden := r.isHidden, description := r.description }] }) tables

/-- The tables that rows describe. -/
def toTables (r : MetadataRows) : List Table :=
  let tables := (r.tables.filter (!blank ·.name)).foldl addTableRow []
  let tables :=
    (r.columns.filter fun c => !lacksName c.table c.name).foldl addColumnRow tables
  (r.measures.filter fun m => !lacksName m.table m.name).foldl addMeasureRow tables

/-- The report on a row that was left out. -/
def skipped (kind table name : String) : Diagnostic where
  code := .warning
  severity := .warn
  message := "Skipped " ++ kind ++ " row without owner or name (" ++ quoted table ++ ", "
    ++ quoted name ++ ")"

/-- The reports on the rows that are left out. -/
def diagnostics (r : MetadataRows) : List Diagnostic :=
  (r.tables.filter (blank ·.name)).map (fun _ => skipped "table" "" "")
    ++ (r.columns.filter fun c => lacksName c.table c.name).map
      (fun c => skipped "column" c.table c.name)
    ++ (r.measures.filter fun m => lacksName m.table m.name).map
      (fun m => skipped "measure" m.table m.name)

/-- The catalog that rows describe. -/
def build (r : MetadataRows) : LoadedModel where
  catalog := {
    tables := r.toTables
    relationships := r.relationships.map (·.toRelationship) }
  diagnostics := r.diagnostics

end MetadataRows

end Tabular
