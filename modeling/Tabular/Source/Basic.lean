import Tabular.Catalog.Rows
import Tabular.Source.ModelFolder
import Tabular.Source.ReportFolder

/-!
# Sources of models and reports

A model comes from a folder of definitions or from rows that a query for metadata gave;
a report comes from a folder or is given as it is. Sources are kept, so that a model can
be loaded again when its files have changed.
-/

namespace Tabular.Source

open Storage

/-- Where a model comes from. -/
inductive ModelSource where
  | folder (location : String)
  | rows (rows : MetadataRows)
  deriving Inhabited

/-- Where a report comes from. -/
inductive ReportSource where
  | folder (location : String)
  | fixed (report : Report)
  deriving Inhabited

/-- The sources of an analysis. -/
structure Sources where
  model : ModelSource
  report : Option ReportSource := none
  deriving Inhabited

/-- What the sources of an analysis give. -/
structure Loaded where
  model : LoadedModel
  report : Option LoadedReport := none
  deriving Inhabited

/-- The rows in the file at a location. -/
def loadRows (files : FileTree) (location : String) : Except SourceError MetadataRows :=
  match readFile files location with
  | .error file => .error (.unreadable file)
  | .ok text =>
      match MetadataRows.ofText? text with
      | some rows => .ok rows
      | none => .error .invalidMetadata

namespace ModelSource

/-- The name of a source. -/
def name : ModelSource → String
  | folder _ => "tmdl-folder"
  | rows _ => "metadata-rows"

/-- The model of a source. -/
def load (files : FileTree) : ModelSource → Except SourceError LoadedModel
  | folder location => loadModelFolder files location
  | .rows given => .ok given.build

end ModelSource

namespace ReportSource

/-- The name of a source. -/
def name : ReportSource → String
  | folder _ => "report-folder"
  | fixed _ => "static-report"

/-- The report of a source. -/
def load (files : FileTree) : ReportSource → Except SourceError LoadedReport
  | folder location => loadReportFolder files location
  | fixed report => .ok { report }

end ReportSource

namespace Sources

/-- The model and the report of the sources. The model comes first, and so does its
failure. -/
def load (files : FileTree) (s : Sources) : Except SourceError Loaded := do
  let model ← s.model.load files
  match s.report with
  | none => return { model }
  | some source => return { model, report := some (← source.load files) }

end Sources

end Tabular.Source
