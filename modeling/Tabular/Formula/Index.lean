import Tabular.Catalog.Basic
import Tabular.Ordered.SortedMap

/-!
# The names a formula can mean

An index knows the tables of a model and the measures and columns they own. It is filled
from rows of a table and a name, and answers in the spelling of the first row that
mentions a name, whatever the case it is asked in. For a bare name it gives all tables
that own it; one table counts once there, since rows are put under the first spelling of
their table.
-/

namespace Tabular.Formula

open Text Ordered

/-- The measures, or the columns, of an index. -/
structure Owned where
  /-- The objects under their lowercase keys. -/
  refs : SortedMap String ObjectRef := ∅
  /-- The tables that own a name, under the lowercase name. -/
  owners : SortedMap String (SortedSet String) := ∅
  deriving Inhabited

/-- The tables of a model and what they own. -/
structure Index where
  /-- The spelling of each table under its lowercase name. -/
  tables : SortedMap String String := ∅
  measures : Owned := {}
  columns : Owned := {}
  deriving Inhabited

namespace Owned

/-- The object of a table with a name, as it was first spelled. -/
def get? (o : Owned) (table name : String) : Option ObjectRef :=
  o.refs.get? (normalizedKey table name)

/-- The tables that own a name, if there are any. -/
def ownersOf? (o : Owned) (name : String) : Option (SortedSet String) :=
  o.owners.get? (fold name)

/-- Adds an object of a table. -/
def add (o : Owned) (owner name : String) : Owned where
  refs := o.refs.insertNew (normalizedKey owner name) ⟨owner, name⟩
  owners := o.owners.insert (fold name) (((o.ownersOf? name).getD ∅).insert owner)

/-- The objects that a bare name can mean, one for each table that owns it. -/
def named (o : Owned) (owners : SortedSet String) (name : String) : List ObjectRef :=
  owners.toList.map fun table => (o.get? table name).getD ⟨table, name⟩

end Owned

namespace Index

/-- The spelling of a known table. -/
def table? (i : Index) (name : String) : Option String := i.tables.get? (fold name)

/-- Whether a table is known. -/
def hasTable (i : Index) (name : String) : Bool := (i.table? name).isSome

/-- The spelling of a table, which is its own when it is not known. -/
def spelling (i : Index) (table : String) : String := (i.table? table).getD table

/-- Adds a table, if it has a name. -/
def addTable (i : Index) (name : String) : Index :=
  if name.isEmpty then i else { i with tables := i.tables.insertNew (fold name) name }

/-- Adds a measure and its table, if both have names. -/
def addMeasure (i : Index) (table name : String) : Index :=
  if table.isEmpty || name.isEmpty then i
  else
    let i := i.addTable table
    { i with measures := i.measures.add (i.spelling table) name }

/-- Adds a column and its table, if both have names. -/
def addColumn (i : Index) (table name : String) : Index :=
  if table.isEmpty || name.isEmpty then i
  else
    let i := i.addTable table
    { i with columns := i.columns.add (i.spelling table) name }

/-- The index of rows of measures and of columns. -/
def ofRows (measures columns : List ObjectRef) : Index :=
  let i := measures.foldl (fun i r => i.addMeasure r.table r.name) {}
  columns.foldl (fun i r => i.addColumn r.table r.name) i

/-- The index of a catalog, which also knows the tables that own nothing. -/
def ofCatalog (c : Catalog) : Index :=
  c.tables.foldl (fun i t => i.addTable t.name)
    (ofRows (c.measures.map (·.ref)) (c.columns.map (·.ref)))

end Index

end Tabular.Formula
