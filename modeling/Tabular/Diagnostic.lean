import Tabular.Json.Decode

/-!
# Diagnostics

Reading a model never fails for the shape of what it reads. What was skipped or only
guessed is put down as a diagnostic: a stable code, how severe it is, a message, and,
as far as they are known, the line, the object and the related objects it is about.
-/

namespace Tabular

open Json

/-- What a diagnostic reports. -/
inductive Diagnostic.Code where
  /-- A line of a definition fits no known shape. -/
  | unrecognizedLine
  /-- A declaration has no name. -/
  | missingName
  /-- A name without a table is owned by more than one table. -/
  | ambiguousReference
  /-- A name without a table is owned by none. -/
  | unresolvedReference
  /-- Objects depend on each other in a circle. -/
  | circularReference
  /-- A file of a folder could not be used. -/
  | fileSkipped
  | info
  | warning
  deriving DecidableEq, Inhabited, Repr

/-- How severe a diagnostic is. -/
inductive Severity where
  | info
  | warn
  | error
  deriving DecidableEq, Inhabited, Repr

/-- A place in a file. -/
structure Location where
  file : String
  /-- The number of the line, from one. -/
  line : Option Nat := none
  deriving DecidableEq, Inhabited, Repr

/-- Something that was noticed on the way. -/
structure Diagnostic where
  code : Diagnostic.Code
  severity : Severity
  message : String
  location : Option Location := none
  /-- The key of the object it is about. -/
  object : Option String := none
  /-- The keys of further objects it is about. -/
  related : List String := []
  deriving DecidableEq, Inhabited, Repr

/-- The codes with their stable names. -/
def Diagnostic.Code.names : List (String × Diagnostic.Code) := [
  ("TMDL_UNRECOGNIZED_LINE", .unrecognizedLine),
  ("TMDL_MISSING_NAME", .missingName),
  ("DAX_AMBIGUOUS_REFERENCE", .ambiguousReference),
  ("DAX_UNRESOLVED_REFERENCE", .unresolvedReference),
  ("GRAPH_CIRCULAR_REFERENCE", .circularReference),
  ("SOURCE_FILE_SKIPPED", .fileSkipped),
  ("INFO", .info),
  ("WARNING", .warning)]

/-- The stable name of a code. -/
def Diagnostic.Code.text : Diagnostic.Code → String
  | .unrecognizedLine => "TMDL_UNRECOGNIZED_LINE"
  | .missingName => "TMDL_MISSING_NAME"
  | .ambiguousReference => "DAX_AMBIGUOUS_REFERENCE"
  | .unresolvedReference => "DAX_UNRESOLVED_REFERENCE"
  | .circularReference => "GRAPH_CIRCULAR_REFERENCE"
  | .fileSkipped => "SOURCE_FILE_SKIPPED"
  | .info => "INFO"
  | .warning => "WARNING"

/-- A code is found under its name. -/
theorem Diagnostic.Code.lookup_text (c : Diagnostic.Code) : names.lookup c.text = some c := by
  cases c <;> rfl

namespace Severity

/-- The name of a severity. -/
def text : Severity → String
  | .info => "info"
  | .warn => "warn"
  | .error => "error"

/-- The severities with their names. -/
def names : List (String × Severity) :=
  [("info", .info), ("warn", .warn), ("error", .error)]

/-- Severities as numbers, the more severe the larger. -/
def rank : Severity → Nat
  | .info => 0
  | .warn => 1
  | .error => 2

end Severity

namespace Location

/-- A place as `file:line`, or as the file alone. -/
def text (l : Location) : String :=
  match l.line with
  | some n => l.file ++ ":" ++ toString n
  | none => l.file

/-- The fields of a place. -/
def fields : List RecordField :=
  [.needed "file", .needed "line"]

/-- A place as a value. -/
def encode (l : Location) : Value :=
  .obj [("file", .str l.file), ("line", Encode.option .nat l.line)]

/-- The place that a value spells. -/
def decode : Decoder Location := fun v => do
  let r ← Record.read? fields v
  return {
    file := ← r.required "file" Decode.string
    line := ← r.optional "line" Decode.word64 }

end Location

namespace Diagnostic

/-- Whether a diagnostic is at least as severe as a severity. -/
def atLeast (d : Diagnostic) (s : Severity) : Bool := s.rank ≤ d.severity.rank

/-- The fields of a diagnostic. -/
def fields : List RecordField :=
  [.needed "code", .needed "severity", .needed "message",
   .needed "location", .needed "object", .needed "related"]

/-- A diagnostic as a value. -/
def encode (d : Diagnostic) : Value :=
  .obj [
    ("code", .str d.code.text),
    ("severity", .str d.severity.text),
    ("message", .str d.message),
    ("location", Encode.option Location.encode d.location),
    ("object", Encode.string? d.object),
    ("related", Encode.strings d.related)]

/-- The diagnostic that a value spells. -/
def decode : Decoder Diagnostic := fun v => do
  let r ← Record.read? fields v
  return {
    code := ← r.required "code" (Decode.word Code.names)
    severity := ← r.required "severity" (Decode.word Severity.names)
    message := ← r.required "message" Decode.string
    location := ← r.optional "location" Location.decode
    object := ← r.optional "object" Decode.string
    related := ← r.required "related" (Decode.list Decode.string) }

end Diagnostic

end Tabular
