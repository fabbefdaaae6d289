import Tabular.Catalog.Codec
import Tabular.Diagnostic
import Tabular.Formula.Index
import Tabular.Formula.Mention

/-!
# The objects a formula refers to

Each mention in a formula stands for objects of its own, whatever stands around it, and
the references of a formula are the union over its mentions. A name with a table means
the measure of that name before the column, and a column when neither is known. A bare
name means every measure of that name, else every column of it; if there is none, it is
taken for a measure whose table is unknown.
-/

namespace Tabular.Formula

open Ordered

/-- The objects a formula refers to. -/
structure References where
  /-- The tables that are named, alone or in front of a name. -/
  tables : SortedSet String := ∅
  columns : SortedSet ObjectRef := ∅
  measures : SortedSet ObjectRef := ∅
  /-- The names as the formula spells them. -/
  identifiers : SortedSet String := ∅
  /-- The bare names that no table owns. -/
  unresolved : SortedSet String := ∅
  /-- The bare names that more than one table owns. -/
  ambiguous : SortedSet String := ∅
  deriving DecidableEq, Inhabited

namespace References

/-- Whether no object is referred to. -/
def isEmpty (r : References) : Bool :=
  r.tables.isEmpty && r.columns.isEmpty && r.measures.isEmpty

/-- The references of two formulas together. -/
def union (r s : References) : References where
  tables := r.tables ∪ s.tables
  columns := r.columns ∪ s.columns
  measures := r.measures ∪ s.measures
  identifiers := r.identifiers ∪ s.identifiers
  unresolved := r.unresolved ∪ s.unresolved
  ambiguous := r.ambiguous ∪ s.ambiguous

instance : Union References := ⟨union⟩

instance : EmptyCollection References := ⟨{}⟩

/-- The set of one element. -/
def one {α : Type} [Ord α] [Std.TransOrd α] [Std.LawfulEqOrd α] (x : α) : SortedSet α :=
  SortedSet.ofList [x]

/-- What a name with a table refers to. -/
def ofQualified (index : Index) (table name : String) : References :=
  let table := index.spelling table
  let found : References := { tables := one table, identifiers := one name }
  match index.measures.get? table name with
  | some measure => { found with measures := one measure }
  | none =>
      { found with columns := one ((index.columns.get? table name).getD ⟨table, name⟩) }

/-- What a table alone refers to. -/
def ofTable (index : Index) (table : String) : References :=
  { tables := one (index.spelling table), identifiers := one table }

/-- The name itself, if more than one table owns it. -/
def ambiguity (owners : SortedSet String) (name : String) : SortedSet String :=
  if owners.size > 1 then one name else ∅

/-- What a bare name refers to. -/
def ofBare (index : Index) (name : String) : References :=
  match index.measures.ownersOf? name with
  | some owners =>
      { identifiers := one name
        measures := SortedSet.ofList (index.measures.named owners name)
        ambiguous := ambiguity owners name }
  | none =>
      match index.columns.ownersOf? name with
      | some owners =>
          { identifiers := one name
            columns := SortedSet.ofList (index.columns.named owners name)
            ambiguous := ambiguity owners name }
      | none =>
          { identifiers := one name
            measures := one (ObjectRef.unresolved name)
            unresolved := one name }

/-- What a mention refers to. A name in brackets belongs to the known table whose name
touches it; a parameter and a name that is declared refer to nothing. -/
def ofMention (index : Index) : Mention → References
  | .qualified table name => ofQualified index table name
  | .table name => ofTable index name
  | .bracketed lead name =>
      let word := touchingWord lead
      if marksParameter lead then ∅
      else if !word.isEmpty && index.hasTable word then ofQualified index word name
      else if declaresName lead then ∅
      else ofBare index name

/-- What some mentions refer to together. -/
def ofMentions (index : Index) (ms : List Mention) : References :=
  ms.foldl (fun r m => r ∪ ofMention index m) ∅

end References

/-- The objects that a formula refers to. -/
def resolve (index : Index) (formula : String) : References :=
  References.ofMentions index (mentions formula)

namespace References

/-- The keys of the objects that an ambiguous name can mean. -/
def candidates (index : Index) (name : String) : List Key :=
  let owners := (index.measures.ownersOf? name).or (index.columns.ownersOf? name)
  ((owners.map (·.toList)).getD []).map fun table => objectKey table name

/-- Notes that a name has more than one owner. -/
def ambiguityNote (object : Key) (index : Index) (name : String) : Diagnostic :=
  let related := candidates index name
  { code := .ambiguousReference
    severity := .info
    message := "[" ++ name ++ "] is owned by " ++ toString related.length ++ " tables"
    object := some object
    related }

/-- Warns that a name is known nowhere. -/
def unresolvedNote (object : Key) (name : String) : Diagnostic where
  code := .unresolvedReference
  severity := .warn
  message := "[" ++ name
    ++ "] matches no known measure or column; assumed to be a measure"
  object := some object

/-- What is to be said about the references of an object's formula. -/
def diagnostics (r : References) (object : Key) (index : Index) : List Diagnostic :=
  r.ambiguous.toList.map (ambiguityNote object index)
    ++ r.unresolved.toList.map (unresolvedNote object)

/-- The references as a value. -/
def encode (r : References) : Json.Value :=
  let objects := fun (s : SortedSet ObjectRef) => Json.Encode.list ObjectRef.encode s.toList
  .obj [
    ("tables", Json.Encode.strings r.tables.toList),
    ("columns", objects r.columns),
    ("measures", objects r.measures),
    ("identifiers", Json.Encode.strings r.identifiers.toList),
    ("unresolved", Json.Encode.strings r.unresolved.toList),
    ("ambiguous", Json.Encode.strings r.ambiguous.toList)]

end References

end Tabular.Formula
