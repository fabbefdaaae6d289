import Tabular.Dependency.Cache
import Tabular.Session.Snapshot
import Tabular.Text.Quote

/-!
# Sessions

A session answers questions about the last snapshot that could be loaded. A load that
fails changes nothing, and one that succeeds replaces the snapshot as a whole and empties
the cache of trees, so no answer mixes two states of a model.
-/

namespace Tabular

open Dependency Formula Source Text

/-- A model under analysis. -/
structure Session where
  config : Config
  sources : Sources
  snapshot : Snapshot
  cache : Cache

namespace Session

/-- A session that starts with what was loaded. -/
def start (config : Config) (sources : Sources) (loaded : Loaded) : Session where
  config
  sources
  snapshot := .ofLoaded config loaded
  cache := (({} : Cache).adopt loaded.model.catalog.fingerprint).2

/-- Opens a session on its sources. -/
def «open» (files : Storage.FileTree) (config : Config) (sources : Sources) :
    Except SourceError Session :=
  (sources.load files).map (start config sources)

/-- The sources in folders, seen from the root of the project. -/
def folders (config : Config) (model : String) (report : Option String) : Sources :=
  let place := Storage.joinLocation config.projectRoot
  { model := .folder (place model)
    report := report.map fun r => .folder (place r) }

/-- The session after a load, and the failure if it failed. -/
def receive (s : Session) : Except SourceError Loaded → Session × Option SourceError
  | .error e => (s, some e)
  | .ok loaded =>
      ({ s with
        snapshot := .ofLoaded s.config loaded
        cache := (s.cache.invalidate.adopt loaded.model.catalog.fingerprint).2 }, none)

/-- Loads the sources again. -/
def reload (s : Session) (files : Storage.FileTree) : Session × Option SourceError :=
  s.receive (s.sources.load files)

/-- The catalog. -/
def catalog (s : Session) : Response Catalog := .ok s.snapshot.catalog

/-- What a formula refers to. -/
def resolve (s : Session) (formula : String) : Response References :=
  .ok (Formula.resolve s.snapshot.index formula)

/-- What the formula of a measure or column refers to. -/
def resolveObject (s : Session) (table name : String) : Response References :=
  match s.snapshot.catalog.findMeasure? table name with
  | some m => s.resolve m.expression
  | none =>
      match s.snapshot.catalog.findColumn? table name with
      | some c => s.resolve (c.expression.getD "")
      | none => .failure .notFound ("No measure or column " ++ objectKey table name)

/-- The dependency tree of a measure, from the cache if it is there. Where no depth is
asked for, the settings give it. -/
def dependencyTree (s : Session) (table name : String) (depth : Option Nat) :
    Response Tree × Session :=
  if blank table || blank name then
    (.failure .invalidInput "Table and measure names are required", s)
  else
    match s.snapshot.catalog.findMeasure? table name with
    | none => (.failure .notFound ("No measure " ++ objectKey table name), s)
    | some m =>
        let depth := depth.getD s.config.maxDepth
        let (tree, cache) := s.cache.getOrInsert m.key depth fun _ =>
          s.snapshot.graph.measureTree? m.table m.name depth
        let answer := match tree with
          | some tree => .ok tree
          | none => .failure .notFound ("No measure " ++ m.key)
        (answer, { s with cache })

/-- What depends on the object under a key. -/
def impact (s : Session) (key : Key) : Response Impact :=
  if (ObjectRef.ofKey? key).isNone then
    .failure .invalidInput ("Expected a key like Table[Name], got " ++ quoted key)
  else if s.snapshot.graph.contains key then .ok (s.snapshot.graph.impact key)
  else .failure .notFound ("No measure or column " ++ key)

/-- Where a column is referred to. -/
def columnUsage (s : Session) (table column : String) : Response ColumnUsage :=
  match s.snapshot.catalog.findColumn? table column with
  | some _ => .ok (s.snapshot.graph.columnUsage table column)
  | none => .failure .notFound ("No column " ++ objectKey table column)

/-- What nothing refers to. -/
def unusedObjects (s : Session) : Response UnusedObjects :=
  .ok s.snapshot.graph.unusedObjects

/-- All there is to be said about the model. -/
def diagnostics (s : Session) : Response (List Diagnostic) := .ok s.snapshot.diagnostics

end Session

end Tabular
