import Tabular.Dependency.Impact
import Tabular.Dependency.Unused
import Tabular.Source.Basic

/-!
# Snapshots

A snapshot is all that is made of one load: the catalog, the index of its names, the
graph with the bindings of the report, and everything there is to be said about them.
-/

namespace Tabular

open Dependency Formula Source

/-- What is known after a load. -/
structure Snapshot where
  catalog : Catalog
  index : Index
  graph : Graph
  report : Option Report
  diagnostics : List Diagnostic

namespace Snapshot

/-- The keys of the objects with formulas, as the catalog lists them. -/
def formulaKeys (c : Catalog) : List Key :=
  c.measures.map (·.key) ++ c.calculatedColumns.map (·.key)

/-- What is to be said about the formula of an object. -/
def formulaNotes (index : Index) (g : Graph) (key : Key) : List Diagnostic :=
  match g.references? key with
  | some r => r.diagnostics key index
  | none => []

/-- The graph of a catalog with the rules of the settings and the bindings of a report. -/
def graphOf (config : Config) (c : Catalog) (report : Option Report) : Graph :=
  let g := (Graph.ofCatalog c).withRules (.ofConfig config)
  match report with
  | none => g
  | some r => g.withBindings r.bindings

/-- The snapshot of what was loaded. -/
def ofLoaded (config : Config) (loaded : Loaded) : Snapshot :=
  let catalog := loaded.model.catalog
  let index := Index.ofCatalog catalog
  let report := loaded.report.map (·.report)
  let graph := graphOf config catalog report
  { catalog
    index
    graph
    report
    diagnostics := loaded.model.diagnostics
      ++ ((loaded.report.map (·.diagnostics)).getD [])
      ++ (formulaKeys catalog).flatMap (formulaNotes index graph)
      ++ graph.diagnostics }

/-- The snapshot of a catalog alone. -/
def ofCatalog (config : Config) (c : Catalog) : Snapshot :=
  ofLoaded config { model := ⟨c, []⟩ }

end Snapshot

end Tabular
