import Tabular.Text.Lowercase

/-!
# Objects and their keys

The objects of a model that formulas speak of are measures and columns, and a table
owns each of them. `Sales[Total]` is the key of the object `Total` of the table
`Sales`. Names are compared in lowercase: two references are the same object when
their tables and their names fold alike, and `normalized` is the key of that relation.

A reference whose owner could not be found has an empty table.
-/

namespace Tabular

open Text

/-- What an object is. -/
inductive ObjectKind where
  | measure
  | column
  deriving DecidableEq, Inhabited, Repr

/-- The name of a kind. -/
def ObjectKind.text : ObjectKind → String
  | .measure => "measure"
  | .column => "column"

/-- The kinds with their names. -/
def ObjectKind.names : List (String × ObjectKind) :=
  [("measure", .measure), ("column", .column)]

/-- The key of an object, spelled `Table[Name]`. -/
abbrev Key := String

/-- The key of an object of a table. -/
def objectKey (table name : String) : Key := table ++ "[" ++ name ++ "]"

/-- The lowercase form of a table and a name, with a bar between them. -/
def normalizedKey (table name : String) : String := fold table ++ "|" ++ fold name

/-- A measure or column by its table and name. -/
structure ObjectRef where
  /-- The owning table, empty when it is unknown. -/
  table : String
  /-- The name of the measure or column. -/
  name : String
  deriving DecidableEq, Inhabited, Repr

namespace ObjectRef

/-- A reference without a known owner. -/
def unresolved (name : String) : ObjectRef := ⟨"", name⟩

/-- Whether the owner is unknown. -/
def isUnresolved (r : ObjectRef) : Bool := r.table.isEmpty

/-- The key of the object. -/
def key (r : ObjectRef) : Key := objectKey r.table r.name

/-- The lowercase lookup key of the object. -/
def normalized (r : ObjectRef) : String := normalizedKey r.table r.name

/-- Whether a table and a name are those of the object, in any case. -/
def isNamed (r : ObjectRef) (table name : String) : Bool :=
  fold r.table == fold table && fold r.name == fold name

/-- The reference that a key spells: the text before the first opening bracket, and
what stands between it and a closing bracket at the end. -/
def ofKey? (key : Key) : Option ObjectRef :=
  match key.toList.reverse with
  | ']' :: body =>
      let body := body.reverse
      match body.dropWhile (· != '[') with
      | '[' :: name =>
          some ⟨String.ofList (body.takeWhile (· != '[')), String.ofList name⟩
      | _ => none
  | _ => none

/-- References are in order of their tables, and then of their names. -/
instance : Ord ObjectRef :=
  ⟨compareLex (compareOn ObjectRef.table) (compareOn ObjectRef.name)⟩

instance : Std.TransOrd ObjectRef :=
  inferInstanceAs (Std.TransCmp (compareLex (compareOn ObjectRef.table)
    (compareOn ObjectRef.name)))

instance : Std.LawfulEqOrd ObjectRef where
  compare_self := (inferInstance : Std.ReflCmp (compareLex (compareOn ObjectRef.table)
    (compareOn ObjectRef.name))).compare_self
  eq_of_compare {a b} h := by
    have h' : (compareOn ObjectRef.table a b).then (compareOn ObjectRef.name a b) = .eq := h
    rw [Ordering.then_eq_eq] at h'
    obtain ⟨table, name⟩ := a
    obtain ⟨table', name'⟩ := b
    have ht := Std.LawfulEqOrd.eq_of_compare h'.1
    have hn := Std.LawfulEqOrd.eq_of_compare h'.2
    simp_all

end ObjectRef

end Tabular
