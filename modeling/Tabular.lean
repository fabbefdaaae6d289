import Tabular.Catalog.Basic
import Tabular.Catalog.Codec
import Tabular.Catalog.Loaded
import Tabular.Catalog.OfDefinition
import Tabular.Catalog.Rows
import Tabular.Config
import Tabular.Decimal
import Tabular.Definition.ColumnName
import Tabular.Definition.Document
import Tabular.Definition.Entry
import Tabular.Definition.FormulaText
import Tabular.Definition.Kind
import Tabular.Definition.Line
import Tabular.Definition.Name
import Tabular.Definition.Node
import Tabular.Definition.PropertyBag
import Tabular.Definition.Typed
import Tabular.Dependency.Cache
import Tabular.Dependency.Graph
import Tabular.Dependency.Impact
import Tabular.Dependency.Reach
import Tabular.Dependency.Search
import Tabular.Dependency.Tree
import Tabular.Dependency.Unused
import Tabular.Diagnostic
import Tabular.Digest.Sha256
import Tabular.Formula.Comment
import Tabular.Formula.Index
import Tabular.Formula.Mention
import Tabular.Formula.References
import Tabular.Json.Decode
import Tabular.Json.Reader
import Tabular.Json.Value
import Tabular.Json.Writer
import Tabular.Object
import Tabular.Ordered.FirstSeen
import Tabular.Ordered.SortedMap
import Tabular.Ordered.SortedSet
import Tabular.Report.Basic
import Tabular.Report.Binding
import Tabular.Report.Codec
import Tabular.Report.Field
import Tabular.Report.Stored
import Tabular.Response
import Tabular.Session.Basic
import Tabular.Session.Snapshot
import Tabular.Source.Basic
import Tabular.Source.ConfigFile
import Tabular.Source.Error
import Tabular.Source.ModelFolder
import Tabular.Source.ReportFolder
import Tabular.Storage.FileTree
import Tabular.Storage.FilePath
import Tabular.Text.Ascii
import Tabular.Text.Blank
import Tabular.Text.Doubled
import Tabular.Text.Letter
import Tabular.Text.Lowercase
import Tabular.Text.Quote
import Tabular.Text.Range
import Tabular.Toml.Reader
import Tabular.Toml.Value
import Tabular.Toml.Writer
import Tabular.Proofs.Dependency.Nodes
import Tabular.Proofs.Dependency.Search
import Tabular.Proofs.Dependency.Cycles
import Tabular.Proofs.Dependency.Formulas
import Tabular.Proofs.Dependency.Unused
import Tabular.Proofs.Dependency.Listing
import Tabular.Proofs.Dependency.Usage
import Tabular.Proofs.Object
import Tabular.Proofs.Formula.Index
import Tabular.Proofs.Formula.References
import Tabular.Proofs.Dependency.Declared
import Tabular.Proofs.Formula.Roles
import Tabular.Proofs.Formula.Mentions
import Tabular.Proofs.Formula.Reread
import Tabular.Proofs.Formula.Hidden
import Tabular.Proofs.Formula.Additions
import Tabular.Proofs.Formula.Answers
import Tabular.Proofs.Formula.WellFormed
import Tabular.Proofs.Formula.Classified
import Tabular.Proofs.Formula.Sum
import Tabular.Proofs.Formula.Plus
import Tabular.Proofs.Formula.Exempt
import Tabular.Proofs.Definition.Append
import Tabular.Proofs.Catalog.Tables
import Tabular.Proofs.Catalog.Changes
import Tabular.Proofs.Catalog.Rows
import Tabular.Proofs.Dependency.Lookup
import Tabular.Proofs.Definition.PropertyBag
import Tabular.Proofs.Definition.Members
import Tabular.Proofs.Catalog.Joined
import Tabular.Proofs.Dependency.Cache
import Tabular.Proofs.Session.Runs
import Tabular.Proofs.Dependency.Ends
import Tabular.Proofs.Dependency.Direct
import Tabular.Proofs.Dependency.Places
import Tabular.Proofs.Dependency.Unfolding
import Tabular.Proofs.Dependency.Deepening
import Tabular.Proofs.Json.Record
import Tabular.Proofs.Source.ModelFolder
import Tabular.Proofs.Codecs
import Tabular.Proofs.Dependency.Distance
import Tabular.Proofs.Dependency.Paths
import Tabular.Proofs.Dependency.Bindings
import Tabular.Proofs.Dependency.Visuals
import Tabular.Proofs.Definition.WellNested
import Tabular.Proofs.Definition.LineEnds
import Tabular.Proofs.Definition.Indent
import Tabular.Proofs.Definition.BodyForms
import Tabular.Proofs.Definition.Body
import Tabular.Proofs.Definition.QuotedName
import Tabular.Proofs.Definition.ColumnName
import Tabular.Proofs.Dependency.CacheRuns
import Tabular.Proofs.Report.Shown
import Tabular.Proofs.Definition.TypedFields
import Tabular.Proofs.Definition.Record
import Tabular.Proofs.Dependency.AnyCase
import Tabular.Proofs.Definition.BagRuns
import Tabular.Proofs.Definition.BodyEnds
