import Tabular.Definition.Entry
import Tabular.Definition.Node
import Tabular.Diagnostic

/-!
# Documents

The tree of a definition. An entry stands in the nearest declaration above it that is
less deep, as long as no entry in between is as shallow as that declaration. Read from
the last entry to the first, this is simple: a declaration takes the run of entries right
below it that are deeper than itself, and whatever it has taken is no longer there for a
declaration above.

Lines that could not be used are reported and otherwise skipped, so a definition of any
text has a tree.
-/

namespace Tabular.Definition

/-- An entry with what it has taken in. -/
inductive Piece where
  | node (n : Node)
  | property (key value : String)
  | nothing
  deriving Inhabited

namespace Piece

/-- The declarations among pieces. -/
def nodes (ps : List Piece) : List Node :=
  ps.filterMap fun
    | node n => some n
    | _ => none

/-- The properties among pieces. -/
def properties (ps : List Piece) : List (String × String) :=
  ps.filterMap fun
    | property key value => some (key, value)
    | _ => none

end Piece

/-- The properties that a declaration has by its own line. -/
def ownProperties (kind : Kind) (description value : Option String) :
    List (String × String) :=
  (description.map (("description", ·))).toList ++ (value.map ((kind.valueKey, ·))).toList

/-- Puts an entry in front of pieces, each with its depth. A declaration takes in those
right below it that are deeper. -/
def addEntry (e : Entry) (below : List (Nat × Piece)) : List (Nat × Piece) :=
  match e.item with
  | .declaration kind name description value =>
      let inside := (below.takeWhile fun p => e.depth < p.1).map (·.2)
      let properties :=
        PropertyBag.ofList (ownProperties kind description value ++ Piece.properties inside)
      (e.depth, .node (.mk kind name e.line properties (Piece.nodes inside)))
        :: below.dropWhile fun p => e.depth < p.1
  | .property key value => (e.depth, .property key value) :: below
  | _ => (e.depth, .nothing) :: below

/-- The pieces that entries make. -/
def pieces (es : List Entry) : List (Nat × Piece) := es.foldr addEntry []

/-- The tree that entries make. -/
def documentOf (es : List Entry) : Node :=
  let top := (pieces es).map (·.2)
  .mk .document "" 0 (PropertyBag.ofList (Piece.properties top)) (Piece.nodes top)

/-- What an entry that could not be used is reported as. -/
def Entry.diagnostic? (file : String) (e : Entry) : Option Diagnostic :=
  let report (code : Diagnostic.Code) (message : String) : Option Diagnostic :=
    some { code, severity := .warn, message, location := some ⟨file, some e.line⟩ }
  match e.item with
  | .nameless kind => report .missingName (kind.text ++ " declaration without a name")
  | .unrecognized content => report .unrecognizedLine ("unrecognized line: " ++ content)
  | _ => none

/-- A definition that has been read. -/
structure Document where
  root : Node
  diagnostics : List Diagnostic
  deriving Inhabited

/-- Reads a definition. -/
def parse (text : String) (file : String) : Document :=
  let es := entries text
  { root := documentOf es, diagnostics := es.filterMap (·.diagnostic? file) }

end Tabular.Definition
