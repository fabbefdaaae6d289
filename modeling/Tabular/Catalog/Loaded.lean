import Tabular.Catalog.Basic
import Tabular.Diagnostic

/-!
# Loaded models

What a source of models gives: a catalog, and what was skipped or guessed on the way to
it, in the order in which it was met.
-/

namespace Tabular

/-- A catalog with what was noticed when it was taken. -/
structure LoadedModel where
  catalog : Catalog
  diagnostics : List Diagnostic
  deriving DecidableEq, Inhabited

end Tabular
