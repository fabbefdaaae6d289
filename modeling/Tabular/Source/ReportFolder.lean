import Tabular.Diagnostic
import Tabular.Json.Reader
import Tabular.Report.Stored
import Tabular.Source.Error

/-!
# Reports in a folder

A stored report has a folder for each page, and below it a folder for each visual. Pages
and visuals come in the order of their folder names. A file that cannot be read, is too
large or is no JSON is left out with a warning; a page without its own file keeps the
name of its folder.
-/

namespace Tabular.Source

open Json Storage

/-- A report with what was noticed when it was read. -/
structure LoadedReport where
  report : Report := {}
  diagnostics : List Diagnostic := []
  deriving DecidableEq, Inhabited

/-- The largest file that is read, in bytes. -/
def maxFileSize : Nat := 10 * 1024 * 1024

/-- Why a file of a report is left out. -/
inductive ReportFileError where
  | tooLarge (bytes : Nat)
  | unreadable (cause : FileError)
  | invalidJson
  deriving DecidableEq, Inhabited, Repr

/-- The text of a reason. -/
def ReportFileError.message : ReportFileError → String
  | .tooLarge bytes => "file too large (" ++ toString bytes ++ " bytes)"
  | .unreadable cause => cause.message
  | .invalidJson => "invalid JSON"

/-- The document in a file of a report. -/
def readDocument (files : FileTree) (p : FilePath) : Except ReportFileError Value :=
  match files.stat p with
  | .error cause => .error (.unreadable cause)
  | .ok .folder => .error (.unreadable .isFolder)
  | .ok (.file bytes) =>
      if bytes.size > maxFileSize then .error (.tooLarge bytes.size)
      else
        match FileTree.textOf bytes with
        | .error cause => .error (.unreadable cause)
        | .ok text =>
            match Json.document? text with
            | some v => .ok v
            | none => .error .invalidJson

/-- Warns that a file of a report was left out. -/
def leftOutNote (p : FilePath) (reason : ReportFileError) : Diagnostic where
  code := .fileSkipped
  severity := .warn
  message := "Skipped " ++ p.label ++ ": " ++ reason.message
  location := some { file := p.label }

/-- The document in a file below the folder of a report, or a warning; nothing at all
when there is no such file. -/
def documentAt (files : FileTree) (folder p : FilePath) : Option Value × List Diagnostic :=
  if files.isFile (folder ++ p) then
    match readDocument files (folder ++ p) with
    | .ok v => (some v, [])
    | .error reason => (none, [leftOutNote p reason])
  else (none, [])

/-- The visual in a folder of a page. -/
def loadVisual (files : FileTree) (folder page : FilePath) (label name : String) :
    Option Visual × List Diagnostic :=
  let (stored, notes) := documentAt files folder (page ++ ["visuals", name, "visual.json"])
  (stored.bind fun v => Report.visual? v label name, notes)

/-- The page in a folder of a report. -/
def loadPage (files : FileTree) (folder : FilePath) (name : String) : Page × List Diagnostic :=
  let place := ["pages", name]
  let (stored, notes) := documentAt files folder (place ++ ["page.json"])
  let page : Page := { name, displayName := stored.bind (Report.text? · "displayName") }
  let visuals := (files.foldersIn (folder ++ place ++ ["visuals"])).map
    (loadVisual files folder place page.label)
  ({ page with visuals := visuals.filterMap (·.1) }, notes ++ visuals.flatMap (·.2))

/-- The report in the folder at a location. -/
def loadReportFolder (files : FileTree) (location : String) :
    Except SourceError LoadedReport :=
  match files.folderAt? location with
  | none => .error (.folderNotFound location)
  | some folder =>
      let pages := (files.foldersIn (folder ++ ["pages"])).map (loadPage files folder)
      .ok { report := ⟨pages.map (·.1)⟩, diagnostics := pages.flatMap (·.2) }

end Tabular.Source
