import Tabular.Catalog.Loaded
import Tabular.Catalog.OfDefinition
import Tabular.Definition.Document
import Tabular.Source.Error

/-!
# Models in a folder

A model may be spread over the definition files of a folder. The files are parsed one
apart from the other, and may be finished in any order: each result carries its position
in path order, and `collect` puts the results back into that order before it makes one
catalog of them. A file that cannot be read is left out with a warning.
-/

namespace Tabular.Source

open Storage

/-- The folders that are not looked into. -/
def ignoredFolders : List String := [".git", ".pbi", "node_modules", "target"]

/-- Whether a file name ends in a dot and `tmdl`, with something in front of it. -/
def isDefinitionName (name : String) : Bool :=
  match Text.beforeEnd? ".tmdl".toList name.toList with
  | some stem => !stem.isEmpty
  | none => false

/-- Whether what stands at a path below a folder is a definition file to be read. -/
def isDefinitionFile : FilePath × Entry → Bool
  | (_, .folder) => false
  | (p, .file _) =>
      (p.getLast?.any isDefinitionName) && !p.dropLast.any ignoredFolders.contains

/-- The definition files below a folder, in path order. -/
def definitionFiles (files : FileTree) (folder : FilePath) : List FilePath :=
  ((files.below folder).filter isDefinitionFile).map (·.1)

/-- What came of a definition file. -/
structure ParsedFile where
  /-- Where the file stands among the others. -/
  position : Nat
  label : String
  outcome : Except FileError Definition.Document

namespace ParsedFile

/-- Reads and parses one file. -/
def read (files : FileTree) (folder : FilePath) (position : Nat) (p : FilePath) : ParsedFile where
  position
  label := p.label
  outcome := (files.readText (folder ++ p)).map fun text => Definition.parse text p.label

/-- Warns that a file was left out. -/
def skipNote (label : String) (cause : FileError) : Diagnostic where
  code := .fileSkipped
  severity := .warn
  message := "Could not read " ++ label ++ ": " ++ cause.message
  location := some { file := label }

/-- What was noticed in a file. -/
def diagnostics (f : ParsedFile) : List Diagnostic :=
  match f.outcome with
  | .ok document => document.diagnostics
  | .error cause => [skipNote f.label cause]

/-- The definition of a file, if it could be read. -/
def root? (f : ParsedFile) : Option Definition.Node :=
  match f.outcome with
  | .ok document => some document.root
  | .error _ => none

end ParsedFile

/-- All definition files below a folder, parsed. -/
def parsedFiles (files : FileTree) (folder : FilePath) : List ParsedFile :=
  (definitionFiles files folder).mapIdx (ParsedFile.read files folder)

/-- One model of parsed files, in whatever order they were finished. -/
def collect (finished : List ParsedFile) : LoadedModel :=
  let inOrder := finished.mergeSort fun a b => a.position ≤ b.position
  { catalog := Catalog.ofDocuments (inOrder.filterMap (·.root?))
    diagnostics := inOrder.flatMap (·.diagnostics) }

/-- The model in the folder at a location. -/
def loadModelFolder (files : FileTree) (location : String) : Except SourceError LoadedModel :=
  match files.folderAt? location with
  | some folder => .ok (collect (parsedFiles files folder))
  | none => .error (.folderNotFound location)

/-- The definition in the file at a location. -/
def loadDefinition (files : FileTree) (location : String) :
    Except UnreadableFile Definition.Node :=
  (readFile files location).map fun text => (Definition.parse text "").root

end Tabular.Source
