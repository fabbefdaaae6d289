import Tabular.Json.Decode
import Tabular.Toml.Value

/-!
# Settings

How deep dependency trees go, how many files are read at a time, how many unused
objects are listed, which columns may be unused without a word, and whether a filter of
a visual counts as a use. Every setting has a default, and a document names only those
that differ.

A group of settings is a table, or an array of its settings in order. Settings that
nobody knows are stepped over.
-/

namespace Tabular

open Json

/-- How many unused objects are listed. -/
structure OutputLimits where
  unusedMeasures : Nat := 50
  unusedColumns : Nat := 50
  unusedTables : Nat := 20
  deriving DecidableEq, Inhabited, Repr

/-- Which columns are left out of the unused ones. -/
structure ColumnRules where
  excludeHidden : Bool := true
  excludeKey : Bool := true
  /-- What the names of the system's own columns start with. -/
  reservedPrefixes : List String := ["RowNumber-"]
  deriving DecidableEq, Inhabited, Repr

/-- How visuals count as uses. -/
structure VisualRules where
  includeFilters : Bool := true
  deriving DecidableEq, Inhabited, Repr

/-- The settings of an analysis. -/
structure Config where
  maxDepth : Nat := 3
  parseWorkers : Nat := 4
  limits : OutputLimits := {}
  columns : ColumnRules := {}
  visuals : VisualRules := {}
  /-- The folder that relative paths start from, which is no setting of its own. -/
  projectRoot : String := ""
  deriving DecidableEq, Inhabited, Repr

/-- Whether a name starts like the system's own columns. -/
def ColumnRules.isReserved (r : ColumnRules) (name : String) : Bool :=
  r.reservedPrefixes.any fun start => start.toList.isPrefixOf name.toList

namespace Config

/-- The values of a group of settings by name: the entries of a table, the items of an
array in order, or none at all where a date stands. -/
def group? (names : List String) : Toml.Value → Option Toml.Table
  | .table _ entries => some entries
  | .array items => some (names.zip items)
  | .tables elements => some (names.zip (elements.map (.table .header)))
  | .dateTime => some []
  | _ => none

/-- A setting with its default. -/
def setting {α : Type} (t : Toml.Table) (name : String) (decode : Toml.Value → Option α)
    (default : α) : Option α :=
  match t.get? name with
  | none => some default
  | some v => decode v

/-- A count. -/
def count? : Toml.Value → Option Nat
  | .integer n => if 0 ≤ n then some n.toNat else none
  | _ => none

/-- A truth value. -/
def flag? : Toml.Value → Option Bool
  | .boolean b => some b
  | _ => none

/-- A list of strings. -/
def strings? : Toml.Value → Option (List String)
  | .array items => items.mapM fun
      | .string s => some s
      | _ => none
  | _ => none

/-- The limits that a value spells. -/
def limits? (v : Toml.Value) : Option OutputLimits := do
  let t ← group? ["unused_measures", "unused_columns", "unused_tables"] v
  return {
    unusedMeasures := ← setting t "unused_measures" count? 50
    unusedColumns := ← setting t "unused_columns" count? 50
    unusedTables := ← setting t "unused_tables" count? 20 }

/-- The rules for columns that a value spells. -/
def columns? (v : Toml.Value) : Option ColumnRules := do
  let t ← group? ["exclude_hidden", "exclude_key", "reserved_prefixes"] v
  return {
    excludeHidden := ← setting t "exclude_hidden" flag? true
    excludeKey := ← setting t "exclude_key" flag? true
    reservedPrefixes := ← setting t "reserved_prefixes" strings? ["RowNumber-"] }

/-- The rules for visuals that a value spells. -/
def visuals? (v : Toml.Value) : Option VisualRules := do
  let t ← group? ["include_filters"] v
  return { includeFilters := ← setting t "include_filters" flag? true }

/-- The settings of a document. -/
def ofTable? (t : Toml.Table) : Option Config := do
  return {
    maxDepth := ← setting t "max_depth" count? 3
    parseWorkers := ← setting t "parse_workers" count? 4
    limits := ← setting t "limits" limits? {}
    columns := ← setting t "columns" columns? {}
    visuals := ← setting t "visuals" visuals? {} }

/-- The document of the settings. -/
def toTable (c : Config) : Toml.Table := [
  ("max_depth", .integer c.maxDepth),
  ("parse_workers", .integer c.parseWorkers),
  ("limits", .table .header [
    ("unused_measures", .integer c.limits.unusedMeasures),
    ("unused_columns", .integer c.limits.unusedColumns),
    ("unused_tables", .integer c.limits.unusedTables)]),
  ("columns", .table .header [
    ("exclude_hidden", .boolean c.columns.excludeHidden),
    ("exclude_key", .boolean c.columns.excludeKey),
    ("reserved_prefixes", .array (c.columns.reservedPrefixes.map .string))]),
  ("visuals", .table .header [
    ("include_filters", .boolean c.visuals.includeFilters)])]

end Config

/-- Limits as a value. -/
def OutputLimits.encode (l : OutputLimits) : Value :=
  .obj [("unused_measures", .nat l.unusedMeasures), ("unused_columns", .nat l.unusedColumns),
    ("unused_tables", .nat l.unusedTables)]

/-- Rules for columns as a value. -/
def ColumnRules.encode (r : ColumnRules) : Value :=
  .obj [("exclude_hidden", .bool r.excludeHidden), ("exclude_key", .bool r.excludeKey),
    ("reserved_prefixes", Encode.strings r.reservedPrefixes)]

/-- Settings as a value. -/
def Config.encode (c : Config) : Value :=
  .obj [
    ("max_depth", .nat c.maxDepth),
    ("parse_workers", .nat c.parseWorkers),
    ("limits", c.limits.encode),
    ("columns", c.columns.encode),
    ("visuals", .obj [("include_filters", .bool c.visuals.includeFilters)])]

end Tabular
