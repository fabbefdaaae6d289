import Tabular.Definition.Kind
import Tabular.Definition.PropertyBag

/-!
# Trees of declarations

A declaration with its properties and the declarations inside it, in the order in which
they were written. The document is the root of its tree and stands on no line.
-/

namespace Tabular.Definition

open Text

/-- A declaration with what is inside it. -/
inductive Node where
  | mk (kind : Kind) (name : String) (line : Nat) (properties : PropertyBag)
      (children : List Node)
  deriving Inhabited

namespace Node

/-- The kind of a declaration. -/
def kind : Node → Kind
  | mk kind _ _ _ _ => kind

/-- The name of a declaration, without its quotes. -/
def name : Node → String
  | mk _ name _ _ _ => name

/-- The line of a declaration, from one; the document has line zero. -/
def line : Node → Nat
  | mk _ _ line _ _ => line

/-- The properties of a declaration. -/
def properties : Node → PropertyBag
  | mk _ _ _ properties _ => properties

/-- The declarations directly inside one. -/
def children : Node → List Node
  | mk _ _ _ _ children => children

/-- The children of one kind. -/
def childrenOf (n : Node) (kind : Kind) : List Node := n.children.filter (·.kind == kind)

/-- The first child of a kind with a name, in any case. -/
def child? (n : Node) (kind : Kind) (name : String) : Option Node :=
  (n.childrenOf kind).find? fun c => sameWord c.name name

/-- The children by kind, for the kinds that occur, in the order of kinds. -/
def groups (n : Node) : List (Kind × List Node) :=
  (Kind.all.map fun k => (k, n.childrenOf k)).filter fun g => !g.2.isEmpty

mutual

/-- A declaration and all those inside it, from top to bottom. -/
def preorder : Node → List Node
  | mk kind name line properties children =>
      mk kind name line properties children :: preorderAll children

/-- `preorder` of each declaration of a list. -/
def preorderAll : List Node → List Node
  | [] => []
  | n :: rest => preorder n ++ preorderAll rest

end

/-- The number of declarations in a tree. -/
def count (n : Node) : Nat := n.preorder.length

end Node

end Tabular.Definition
