import Tabular.Text.Blank
import Tabular.Text.Doubled

/-!
# Columns named by a relationship

A relationship names the column at each of its ends together with the table. The table
may stand between quotes and the column too, with a dot in between; or the column stands
in brackets behind the table. Without quotes a table ends at the first dot or bracket.
A reference that lacks one of its two parts names nothing.

`encode` is the form with quotes around both, which can name every column.
-/

namespace Tabular.Definition.ColumnName

open Text

/-- The table at the start of a reference, and what follows it. -/
def readTable? (cs : List Char) : Option (List Char × List Char) :=
  match cs with
  | '\'' :: rest => (readUntil? '\'' rest).map fun (table, after) => (table, trimStart after)
  | _ =>
      let separates := fun c => c == '.' || c == '['
      match cs.dropWhile (!separates ·) with
      | [] => none
      | after => some (trim (cs.takeWhile (!separates ·)), after)

/-- The column at the end of a reference, from its separator on. -/
def readColumn? (cs : List Char) : Option (List Char) :=
  match cs with
  | '.' :: rest =>
      match trim rest with
      | '\'' :: rest =>
          match readUntil? '\'' rest with
          | some (column, after) => if allBlank after then some column else none
          | none => none
      | column => some column
  | '[' :: rest =>
      let kept := trimEnd rest
      if kept.getLast? = some ']' then some (halve ']' kept.dropLast) else none
  | _ => none

/-- The table and the column that a reference names. -/
def decompose? (reference : String) : Option (String × String) :=
  match readTable? (trim reference.toList) with
  | none => none
  | some (table, after) =>
      match readColumn? after with
      | none => none
      | some column =>
          if table.isEmpty || column.isEmpty then none
          else some (String.ofList table, String.ofList column)

/-- The reference to a column, with quotes around both names. -/
def encode (table column : String) : String :=
  let quoted (name : String) := '\'' :: (double '\'' name.toList ++ ['\''])
  String.ofList (quoted table ++ '.' :: quoted column)

end Tabular.Definition.ColumnName
