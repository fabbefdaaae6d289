import Tabular.Json.Value
import Tabular.Ordered.SortedMap

/-!
# Values to records and back

A record type is written as an object with a member for each field, and read from one.
When it is read, a field may go by other names, members that belong to no field are
stepped over, and a field given twice is a failure, also under two of its names. A
record may also be given as the array of its fields in order, where only fields that
may be left out can be missing at the end.

`Record.read?` settles all of that, and leaves a list from field names to values. The
fields are then taken from it one by one: `required`, `orElse` with a value to stand
in, or `optional`, for which a null counts as missing.
-/

namespace Tabular.Json

/-- Reads a value of a type. -/
abbrev Decoder (α : Type) := Value → Option α

/-- How a field of a record is found. -/
structure RecordField where
  /-- The name it is written under. -/
  name : String
  /-- Other names it is read under. -/
  aliases : List String := []
  /-- Whether it may be left out at the end of the array form. -/
  mayMiss : Bool := true

namespace RecordField

/-- A field that has to be there. -/
def needed (name : String) : RecordField := ⟨name, [], false⟩

/-- A field that may be missing. -/
def spared (name : String) : RecordField := ⟨name, [], true⟩

/-- Whether a key names the field. -/
def named (f : RecordField) (key : String) : Bool := f.name == key || f.aliases.contains key

end RecordField

/-- The values given for the fields of a record, by field name. -/
abbrev Record := List (String × Value)

namespace Record

/-- Files the members of an object under the fields they belong to. -/
def ofMembers? (fields : List RecordField) : List (String × Value) → Record → Option Record
  | [], filed => some filed
  | (key, v) :: rest, filed =>
      match fields.find? (·.named key) with
      | none => ofMembers? fields rest filed
      | some f =>
          if (Value.lookup f.name filed).isSome then none
          else ofMembers? fields rest (filed ++ [(f.name, v)])

/-- Files the items of an array under the fields in order. -/
def ofItems? : List RecordField → List Value → Option Record
  | [], [] => some []
  | [], _ :: _ => none
  | f :: fs, [] => if f.mayMiss then ofItems? fs [] else none
  | f :: fs, v :: vs => (ofItems? fs vs).map ((f.name, v) :: ·)

/-- The values that an object or an array gives for the fields of a record. -/
def read? (fields : List RecordField) : Value → Option Record
  | .obj members => ofMembers? fields members []
  | .arr items => ofItems? fields items
  | _ => none

/-- A field that has to be there. -/
def required {α : Type} (r : Record) (name : String) (decode : Decoder α) : Option α :=
  (Value.lookup name r).bind decode

/-- A field with a value that stands in when it is missing. -/
def orElse {α : Type} (r : Record) (name : String) (decode : Decoder α) (default : α) :
    Option α :=
  match Value.lookup name r with
  | none => some default
  | some v => decode v

/-- A field whose value may be missing or null. -/
def optional {α : Type} (r : Record) (name : String) (decode : Decoder α) :
    Option (Option α) :=
  match Value.lookup name r with
  | none => some none
  | some .null => some none
  | some v => (decode v).map some

end Record

namespace Decode

/-- A string. -/
def string : Decoder String := Value.str?

/-- A truth value. -/
def bool : Decoder Bool
  | .bool b => some b
  | _ => none

/-- A whole number from zero up to a bound. -/
def natBelow (bound : Nat) : Decoder Nat
  | .int n => if 0 ≤ n ∧ n < bound then some n.toNat else none
  | _ => none

/-- A whole number that fits 32 bits. -/
def word32 : Decoder Nat := natBelow 4294967296

/-- A whole number that fits 64 bits. -/
def word64 : Decoder Nat := natBelow 18446744073709551616

/-- An array of values of one type. -/
def list {α : Type} (decode : Decoder α) : Decoder (List α)
  | .arr vs => vs.mapM decode
  | _ => none

/-- The entries of an object whose values are strings. -/
def stringMap : Decoder (Ordered.SortedMap String String)
  | .obj ms =>
      (ms.mapM fun (m : String × Value) => m.2.str?.map ((m.1, ·))).map Ordered.SortedMap.ofList
  | _ => none

/-- One of several words: as a string, or as an object with the word as its only key and
nothing under it. -/
def word {α : Type} (words : List (String × α)) : Decoder α
  | .str s => words.lookup s
  | .obj [(s, .null)] => words.lookup s
  | _ => none

end Decode

namespace Encode

/-- A value or null. -/
def option {α : Type} (encode : α → Value) : Option α → Value
  | none => .null
  | some a => encode a

/-- A string or null. -/
def string? (s : Option String) : Value := option .str s

/-- An array. -/
def list {α : Type} (encode : α → Value) (xs : List α) : Value := .arr (xs.map encode)

/-- An array of strings. -/
def strings (xs : List String) : Value := list .str xs

/-- An object whose values are strings. -/
def stringMap (m : Ordered.SortedMap String String) : Value :=
  .obj (m.toList.map fun (k, v) => (k, .str v))

end Encode

end Tabular.Json
