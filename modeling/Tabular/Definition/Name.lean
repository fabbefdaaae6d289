import Tabular.Text.Blank
import Tabular.Text.Doubled

/-!
# Quoted names

A name that is not one plain word is written between single quotes, and a quote inside
it is written twice. Between quotes every other character stands for itself, so an
equals sign there separates nothing.
-/

namespace Tabular.Definition

open Text

/-- A name between quotes. -/
def quoteName (name : List Char) : List Char := '\'' :: (double '\'' name ++ ['\''])

/-- The name that a text spells, with or without quotes around it. -/
def unquote (text : List Char) : List Char :=
  let kept := trim text
  match kept with
  | '\'' :: inner =>
      if inner.getLast? = some '\'' then halve '\'' inner.dropLast else kept
  | _ => kept

/-- What stands before and after the first equals sign outside quotes. -/
def splitAtEquals (quoted : Bool) : List Char → List Char × Option (List Char)
  | [] => ([], none)
  | c :: rest =>
      if c = '=' && !quoted then ([], some rest)
      else
        let (before, after) := splitAtEquals (if c = '\'' then !quoted else quoted) rest
        (c :: before, after)

end Tabular.Definition
