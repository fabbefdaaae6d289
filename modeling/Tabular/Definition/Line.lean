import Tabular.Definition.Kind
import Tabular.Text.Ascii
import Tabular.Text.Blank

/-!
# Lines of a definition, and what they say

A definition is read by its lines. The tabs in front of a line say how deep it stands,
blanks at its end say nothing, and a line of blanks is no line at all but for its
number. `Shape.of` tells from the words of a line alone what it is: the shapes are tried
in a fixed order, and the first that fits is taken.

A formula may go on over several lines, and then the question is only where it ends.
`endsBody` answers it for a line one level below the declaration: what could be a
property, a flag, a description or a declaration of its own is no part of a formula.
-/

namespace Tabular.Definition

open Text

/-- A line without the tabs in front of it and the blanks at its end. -/
structure Line where
  /-- The number of tabs in front. -/
  depth : Nat
  /-- The rest of the line, empty when it is blank. -/
  text : List Char
  deriving DecidableEq, Inhabited, Repr

namespace Line

/-- The line of blanks. -/
def blank : Line := ⟨0, []⟩

/-- The depth and the text of a line as it is written. -/
def ofRaw (raw : List Char) : Line :=
  let kept := trimEnd raw
  ⟨(kept.takeWhile (· == '\t')).length, kept.dropWhile (· == '\t')⟩

/-- Whether a line holds blanks only. -/
def isBlank (l : Line) : Bool := l.text.isEmpty

/-- The words of a line. -/
def content (l : Line) : List Char := trimStart l.text

end Line

/-- Adds a character in front of the lines of a text. -/
def addChar (c : Char) (lines : List (List Char)) : List (List Char) :=
  if c = '\n' then [] :: lines
  else match lines with
    | [] => [[c]]
    | l :: rest => (c :: l) :: rest

/-- The lines of a text, each ended by a line feed or by the end of the text. -/
def splitLines (text : List Char) : List (List Char) := text.foldr addChar []

/-- The lines of a definition. A byte-order mark at its start is no part of it. -/
def linesOf (text : String) : List Line :=
  let cs := match text.toList with
    | '\uFEFF' :: rest => rest
    | cs => cs
  (splitLines cs).map Line.ofRaw

/-- The lines of a text, put in a column with the tabs that all of them have taken away.
Blank lines are kept and count for nothing. -/
def dedented (lines : List Line) : List (List Char) :=
  let shared := ((lines.filter (!·.isBlank)).map (·.depth)).min?.getD 0
  lines.map fun l =>
    if l.isBlank then [] else List.replicate (l.depth - shared) '\t' ++ l.text

/-- Lines as one text, with the tabs that all of them have taken away. -/
def dedent (lines : List Line) : List Char :=
  List.intercalate ['\n'] (dedented lines)

/-- The mark around a formula that is taken as it stands. -/
def fence : List Char := ['\x60', '\x60', '\x60']

/-- Whether a character may start a plain name. -/
def startsName (c : Char) : Bool := c.isAlpha || c == '_'

/-- Whether a character may stand in a plain name. -/
def inName (c : Char) : Bool := c.isAlphanum || c == '_'

/-- Whether a text is a plain name. -/
def isPlainName : List Char → Bool
  | [] => false
  | c :: rest => startsName c && rest.all inName

/-- The declaration a line opens: its keyword and what follows, which must be there and
must not be a separator. -/
def declaration? (content : List Char) : Option (Kind × List Char) :=
  let ends := fun c => isBlank c || c == ':' || c == '='
  match Kind.ofKeyword? (content.takeWhile (!ends ·)) with
  | none => none
  | some kind =>
      match trimStart (content.dropWhile (!ends ·)) with
      | [] => none
      | c :: rest => if c == ':' || c == '=' then none else some (kind, c :: rest)

/-- What stands between a key and its value. -/
inductive Separator where
  | colon
  | equals
  deriving DecidableEq, Inhabited, Repr

/-- The property a line gives: its key, which is one word, the first separator, and the
value. -/
def property? (content : List Char) : Option (String × Separator × List Char) :=
  let separates := fun c => c == ':' || c == '='
  let key := trim (content.takeWhile (!separates ·))
  match content.dropWhile (!separates ·) with
  | [] => none
  | c :: value =>
      if key.isEmpty || key.any isBlank then none
      else some (String.ofList key, if c == ':' then .colon else .equals, trim value)

/-- What the words of a line say. -/
inductive Shape where
  /-- A line of a description. -/
  | description (text : String)
  /-- The start of a declaration, with what follows its keyword. -/
  | declaration (kind : Kind) (rest : List Char)
  /-- A mention of something that is declared elsewhere. -/
  | mention
  /-- A keyword without a name. -/
  | keyword (kind : Kind)
  /-- A key with a value. -/
  | property (key : String) (separator : Separator) (value : List Char)
  /-- A key alone, which is a flag that is set. -/
  | flag (key : String)
  /-- Nothing that is known. -/
  | unknown
  deriving DecidableEq, Inhabited

/-- What the words of a line say. -/
def Shape.of (content : List Char) : Shape :=
  match afterStart? ['/', '/', '/'] content with
  | some text => .description (String.ofList (trim text))
  | none =>
      match declaration? content with
      | some (kind, rest) => .declaration kind rest
      | none =>
          if content == ['r', 'e', 'f'] || (afterStart? ['r', 'e', 'f', ' '] content).isSome then
            .mention
          else match Kind.ofKeyword? content with
            | some kind => .keyword kind
            | none =>
                match property? content with
                | some (key, separator, value) => .property key separator value
                | none =>
                    if isPlainName content then .flag (String.ofList content) else .unknown

/-- Whether a text starts with a plain name, blanks and a separator. The name must start
with a character of the given class. -/
def startsKey (starts : Char → Bool) (separator : Char) : List Char → Bool
  | [] => false
  | c :: rest =>
      starts c && match trimStart (rest.dropWhile inName) with
        | [] => false
        | d :: _ => d == separator

/-- Whether a text is a flag by its name: a plain name that starts with "is" and a
capital. -/
def isFlagName (content : List Char) : Bool :=
  match content with
  | 'i' :: 's' :: c :: _ => c.isUpper && isPlainName content
  | _ => false

/-- Whether a line one level below a declaration is no part of its formula. -/
def endsBody (content : List Char) : Bool :=
  (afterStart? ['/', '/', '/'] content).isSome
    || startsKey startsName ':' content
    || startsKey Char.isLower '=' content
    || isFlagName content
    || (declaration? content).isSome

end Tabular.Definition
