import Tabular.Response
import Tabular.Storage.FileTree

/-!
# Failures of a source

A source fails as a whole only when it cannot be reached at all: its folder is missing,
its file cannot be read, or its rows are no rows. Whatever else goes wrong is a
diagnostic of what it gives.
-/

namespace Tabular.Source

open Storage

/-- A file that could not be read. -/
structure UnreadableFile where
  location : String
  cause : FileError
  deriving DecidableEq, Inhabited, Repr

/-- What is said of a file that could not be read. -/
def UnreadableFile.message (f : UnreadableFile) : String :=
  "failed to read " ++ f.location ++ ": " ++ f.cause.message

/-- Why a source gives nothing. -/
inductive SourceError where
  | folderNotFound (location : String)
  | unreadable (file : UnreadableFile)
  /-- The rows of a source are no rows. -/
  | invalidMetadata
  deriving DecidableEq, Inhabited, Repr

namespace SourceError

/-- The class of a failure. -/
def errorClass : SourceError → ErrorClass
  | folderNotFound _ => .io
  | unreadable _ => .io
  | invalidMetadata => .parse

/-- What is said of a failure. -/
def message : SourceError → String
  | folderNotFound location => "Source folder not found: " ++ location
  | unreadable file => "Failed to read " ++ file.location ++ ": " ++ file.cause.message
  | invalidMetadata => "Invalid metadata"

end SourceError

/-- The text of the file at a location. -/
def readFile (files : FileTree) (location : String) : Except UnreadableFile String :=
  match files.readTextAt location with
  | .ok text => .ok text
  | .error cause => .error ⟨location, cause⟩

end Tabular.Source
