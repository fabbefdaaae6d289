import Tabular.Definition.PropertyBag
import Tabular.Text.Letter

/-!
# Properties that look like formulas

The formula of a measure is kept under the key `expression`. Where a model keeps it under
another key, it is told from the other properties by its looks: a text is taken for a
formula when it is long, when it calls one of the usual functions, holds one of the words
that start a block, or a name in brackets, or when it is one quoted text. Keys that are
known to describe an object are never looked at.

Words are compared without regard to case over all letters, so the long s and the sign
for kelvin count as the letters they look like.
-/

namespace Tabular.Definition

open Text

/-- Keys of properties that describe an object. -/
def describingKeys : List String :=
  ["formatString", "displayFolder", "lineageTag", "sourceLineageTag", "description",
   "dataType", "dataCategory", "summarizeBy", "sourceColumn", "sortByColumn", "isHidden",
   "isKey", "changedProperty", "kind", "mode", "sourceKind"]

/-- Functions by whose calls a formula is recognised. -/
def knownFunctions : List String :=
  ["VAR", "RETURN", "CALCULATE", "CALCULATETABLE", "SUM", "SUMX", "AVERAGE", "AVERAGEX",
   "MIN", "MINX", "MAX", "MAXX", "COUNT", "COUNTA", "COUNTX", "COUNTROWS",
   "DISTINCTCOUNT", "DIVIDE", "FILTER", "ALL", "ALLEXCEPT", "ALLSELECTED", "VALUES",
   "DISTINCT", "RELATED", "RELATEDTABLE", "IF", "SWITCH", "SELECTEDVALUE", "HASONEVALUE",
   "ISBLANK", "BLANK", "USERELATIONSHIP", "TOTALYTD", "DATEADD", "SAMEPERIODLASTYEAR",
   "KEEPFILTERS", "REMOVEFILTERS", "TREATAS", "SUMMARIZE", "ADDCOLUMNS", "FORMAT"]

/-- Words that start a block of a formula. -/
def blockWords : List String := ["VAR", "RETURN"]

/-- The length above which a text is taken for a formula. -/
def longText : Nat := 50

/-- Whether a character is a capital of ASCII in any case. -/
def isLetterOf (capital c : Char) : Bool :=
  c == capital || c == capital.toLower
    || (capital == 'S' && c == 'ſ') || (capital == 'K' && c == Char.ofNat 0x212A)

/-- What follows a word at the start of a text, in any case. -/
def afterWord? : List Char → List Char → Option (List Char)
  | [], cs => some cs
  | _ :: _, [] => none
  | w :: ws, c :: cs => if isLetterOf w c then afterWord? ws cs else none

/-- Whether a text starts with a call of a function. -/
def startsCall (function : String) (cs : List Char) : Bool :=
  match afterWord? function.toList cs with
  | none => false
  | some after => (trimStart after).head? == some '('

/-- Whether a text starts with a word that ends there. -/
def startsWord (word : String) (cs : List Char) : Bool :=
  match afterWord? word.toList cs with
  | none => false
  | some [] => true
  | some (c :: _) => !isWordChar c

/-- Whether a text starts with a name in brackets. -/
def startsBracketed : List Char → Bool
  | '[' :: rest =>
      !(rest.takeWhile (· != ']')).isEmpty && !(rest.dropWhile (· != ']')).isEmpty
  | _ => false

/-- Whether a text has a mark of a formula in it, given whether the character before it
belongs to a word. -/
def hasMark (inWord : Bool) : List Char → Bool
  | [] => false
  | c :: rest =>
      (!inWord && (knownFunctions.any (startsCall · (c :: rest))
          || blockWords.any (startsWord · (c :: rest))))
        || startsBracketed (c :: rest)
        || hasMark (isWordChar c) rest

/-- Whether a text is one quoted text. -/
def isQuotedText (cs : List Char) : Bool :=
  2 ≤ cs.length && cs.head? == some '"' && cs.getLast? == some '"'

/-- Whether a value looks like a formula. -/
def looksLikeFormula (value : String) : Bool :=
  let cs := trim value.toList
  !cs.isEmpty && (longText < cs.length || hasMark false cs || isQuotedText cs)

/-- Whether a key describes an object. -/
def isDescribing (key : String) : Bool := describingKeys.any (sameWord · key)

/-- The formula among properties, with the key it is kept under. -/
def PropertyBag.formula? (b : PropertyBag) : Option (String × String) :=
  let other := b.entries.find? fun e =>
    !sameWord e.1 "expression" && !isDescribing e.1 && looksLikeFormula e.2
  match b.get? "expression" with
  | some value => if blank value then other else some ("expression", value)
  | none => other

end Tabular.Definition
