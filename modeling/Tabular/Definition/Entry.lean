import Tabular.Definition.Line
import Tabular.Definition.Name

/-!
# Entries of a definition

A definition is first read as a plain list of entries, one for each line that is not
blank and not part of a value: what the line says, its number and its depth. How the
entries nest is a second question, which needs only their depths and is answered
elsewhere.

Two things make an entry more than its line. A value may go on over the lines below, as
the body of a formula or between two fences; the reader is then in a mode of its own,
which ends at the first line that does not belong to it, and that line is read as if
nothing had come before. And the lines of a description wait for the declaration they
stand above; any other entry in between makes them void.
-/

namespace Tabular.Definition

open Text

/-- What an entry says. -/
inductive Item where
  /-- A declaration, with the value behind its equals sign. -/
  | declaration (kind : Kind) (name : String) (description value : Option String)
  /-- A property of the declaration it stands in. -/
  | property (key value : String)
  /-- A declaration that has no name. -/
  | nameless (kind : Kind)
  /-- A line that fits no shape. -/
  | unrecognized (content : String)
  /-- Nothing; the line only shows how deep the text has come. -/
  | nothing
  deriving DecidableEq, Inhabited, Repr

/-- What a line, or several lines with one value, say. -/
structure Entry where
  /-- The number of the first line, from one. -/
  line : Nat
  depth : Nat
  item : Item
  deriving DecidableEq, Inhabited, Repr

/-- What a value is the value of. -/
inductive Subject where
  | declaration (kind : Kind) (name : String) (description : Option String)
  | property (key : String)
  deriving DecidableEq, Inhabited

/-- An entry whose value is still to come. -/
structure Head where
  line : Nat
  depth : Nat
  subject : Subject
  deriving DecidableEq, Inhabited

/-- The entry of a head and its value. A property without a value is no property. -/
def Head.entry (h : Head) (value : Option String) : Entry where
  line := h.line
  depth := h.depth
  item := match h.subject, value with
    | .declaration kind name description, value => .declaration kind name description value
    | .property key, some value => .property key value
    | .property _, none => .nothing

/-- What is being read. -/
inductive Mode where
  /-- A line by itself. -/
  | lines
  /-- The body of a formula: what stood on the line of its head, the lines so far, and the
  number of blank lines since. -/
  | body (head : Head) (start : List Char) (soFar : List Line) (blanks : Nat)
  /-- The lines up to a closing fence. -/
  | fenced (head : Head) (soFar : List Line)
  deriving Inhabited

/-- Where the reader stands between two lines. -/
structure Reading where
  mode : Mode := .lines
  /-- The lines of a description that waits for its declaration. -/
  description : List String := []
  deriving Inhabited

/-- The value of a formula: what stood on the line of its head, and its body below. -/
def bodyValue (start : List Char) (body : List Line) : Option String :=
  match start, body with
  | [], [] => none
  | [], body => some (String.ofList (dedent body))
  | start, [] => some (String.ofList start)
  | start, body => some (String.ofList (start ++ '\n' :: dedent body))

/-- The value between two fences. -/
def fencedValue (body : List Line) : String :=
  let value := (dedent body).dropWhile (· == '\n')
  String.ofList (value.reverse.dropWhile (· == '\n')).reverse

/-- Whether a line belongs to the body of a formula. Lines more than one level below the
head always do; lines just below it do when nothing stands on the line of the head and
they do not end the body. -/
def continuesBody (head : Head) (start : List Char) (l : Line) : Bool :=
  l.depth > head.depth + 1
    || (start.isEmpty && l.depth == head.depth + 1 && !endsBody l.content)

/-- Starts to read a value: the entry if the value is complete, or else the mode in which
the rest of it is read. -/
def startValue (head : Head) (hasBody : Bool) (text : List Char) : Mode × List Entry :=
  match afterStart? fence text with
  | some rest =>
      match beforeFirst? fence rest with
      | some value => (.lines, [head.entry (some (String.ofList (trim value)))])
      | none =>
          let first := trim rest
          (.fenced head (if first.isEmpty then [] else [⟨0, first⟩]), [])
  | none =>
      if hasBody then (.body head text [] 0, [])
      else if text.isEmpty then (.lines, [head.entry none])
      else (.lines, [head.entry (some (String.ofList text))])

/-- Reads a line by itself. -/
def readLine (number : Nat) (description : List String) (l : Line) : Reading × List Entry :=
  let say (item : Item) : List Entry := [⟨number, l.depth, item⟩]
  match Shape.of l.content with
  | .description text => ({ description := description ++ [text] }, say .nothing)
  | .declaration kind rest =>
      let (namePart, value) := splitAtEquals false rest
      match unquote namePart with
      | [] => ({}, say (.nameless kind))
      | name =>
          let about := if description.isEmpty then none
            else some (String.intercalate "\n" description)
          let head : Head := ⟨number, l.depth, .declaration kind (String.ofList name) about⟩
          match value with
          | none => ({}, [head.entry none])
          | some value =>
              let (mode, entries) := startValue head kind.hasBody (trim value)
              ({ mode }, entries)
  | .mention => ({}, say .nothing)
  | .keyword kind => ({}, say (.nameless kind))
  | .property key .colon value => ({}, say (.property key (String.ofList value)))
  | .property key .equals value =>
      let (mode, entries) := startValue ⟨number, l.depth, .property key⟩ true value
      ({ mode }, entries)
  | .flag key => ({}, say (.property key "true"))
  | .unknown => ({}, say (.unrecognized (String.ofList l.content)))

/-- The entry that is complete when the text ends. -/
def Mode.finish : Mode → List Entry
  | .lines => []
  | .body head start soFar _ => [head.entry (bodyValue start soFar)]
  | .fenced head soFar => [head.entry (some (fencedValue soFar))]

/-- Reads one more line. -/
def Reading.next (number : Nat) (r : Reading) (l : Line) : Reading × List Entry :=
  match r.mode with
  | .lines => if l.isBlank then (r, []) else readLine number r.description l
  | .body head start soFar blanks =>
      if l.isBlank then ({ r with mode := .body head start soFar (blanks + 1) }, [])
      else if continuesBody head start l then
        let soFar := soFar ++ List.replicate blanks Line.blank ++ [l]
        ({ r with mode := .body head start soFar 0 }, [])
      else
        let (r', entries) := readLine number r.description l
        (r', r.mode.finish ++ entries)
  | .fenced head soFar =>
      match beforeEnd? fence l.text with
      | some before =>
          let last := trimEnd before
          let soFar := if last.isEmpty then soFar else soFar ++ [⟨l.depth, last⟩]
          ({ r with mode := .lines }, [head.entry (some (fencedValue soFar))])
      | none => ({ r with mode := .fenced head (soFar ++ [l]) }, [])

/-- The entries of lines, read on from where the reader stands. -/
def entriesFrom (number : Nat) (r : Reading) : List Line → List Entry
  | [] => r.mode.finish
  | l :: rest =>
      let (r', entries) := r.next number l
      entries ++ entriesFrom (number + 1) r' rest

/-- The entries of a definition. -/
def entries (text : String) : List Entry := entriesFrom 1 {} (linesOf text)

/-- Where the reader stands after some lines. -/
def Reading.after (number : Nat) (r : Reading) : List Line → Reading
  | [] => r
  | l :: rest => Reading.after (number + 1) (r.next number l).1 rest

/-- The entries that are complete after some lines. -/
def entriesUpTo (number : Nat) (r : Reading) : List Line → List Entry
  | [] => []
  | l :: rest => (r.next number l).2 ++ entriesUpTo (number + 1) (r.next number l).1 rest

/-- Reading two stretches of lines is reading the second from where the first has led. -/
theorem entriesFrom_append (number : Nat) (r : Reading) (a b : List Line) :
    entriesFrom number r (a ++ b) =
      entriesUpTo number r a ++ entriesFrom (number + a.length) (r.after number a) b := by
  induction a generalizing number r with
  | nil => simp [entriesUpTo, Reading.after]
  | cons l rest ih =>
      simp only [List.cons_append, entriesFrom, ih, entriesUpTo, Reading.after,
        List.append_assoc, List.length_cons]
      rw [show number + 1 + rest.length = number + (rest.length + 1) by omega]

end Tabular.Definition
