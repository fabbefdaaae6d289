import Tabular.Ordered.SortedMap
import Tabular.Text.Ascii
import Tabular.Text.Blank

/-!
# Bags of properties

The properties of a declaration, in the order in which they were first given. Writing
compares keys exactly, so spellings of a key that differ in case may stand side by
side. Looking up takes the exact spelling if there is one, and otherwise the first that
differs in case only; `find?` and `take` agree on which entry that is.
-/

namespace Tabular.Definition

open Text

/-- Properties in the order in which they were first given. -/
structure PropertyBag where
  entries : List (String × String) := []
  deriving DecidableEq, Inhabited, Repr

namespace PropertyBag

/-- Gives a key a value, in the place where the key stands already or else at the end. -/
def setEntry (key value : String) : List (String × String) → List (String × String)
  | [] => [(key, value)]
  | (k, v) :: rest =>
      if k = key then (k, value) :: rest else (k, v) :: setEntry key value rest

/-- Takes away the first entry that a test accepts. -/
def eraseFirst (test : String → Bool) : List (String × String) → List (String × String)
  | [] => []
  | (k, v) :: rest => if test k then rest else (k, v) :: eraseFirst test rest

/-- The bag without properties. -/
def empty : PropertyBag := ⟨[]⟩

/-- The bag with a value under a key. -/
def insert (b : PropertyBag) (key value : String) : PropertyBag :=
  ⟨setEntry key value b.entries⟩

/-- The bag that comes from giving properties one after the other. -/
def ofList (entries : List (String × String)) : PropertyBag :=
  entries.foldl (fun b e => b.insert e.1 e.2) empty

/-- Whether a key stands in the bag in exactly this spelling. -/
def hasExactly (b : PropertyBag) (key : String) : Bool := b.entries.any (·.1 == key)

/-- The test by which the entry of a key is found: the exact spelling if there is one, and
otherwise any that differs in case only. -/
def isEntry (b : PropertyBag) (key : String) : String → Bool :=
  if b.hasExactly key then (· == key) else (sameWord · key)

/-- The entry of a key. -/
def find? (b : PropertyBag) (key : String) : Option (String × String) :=
  b.entries.find? fun e => b.isEntry key e.1

/-- The value of a key. -/
def get? (b : PropertyBag) (key : String) : Option String := (b.find? key).map (·.2)

/-- Whether a text means yes. -/
def isTrue (value : String) : Bool :=
  sameWord (trimmed value) "true" || trimmed value == "1"

/-- The value of a key as a flag. -/
def flag? (b : PropertyBag) (key : String) : Option Bool := (b.get? key).map isTrue

/-- Whether a key has a value. -/
def contains (b : PropertyBag) (key : String) : Bool := (b.get? key).isSome

/-- The bag without the entry of a key. -/
def erase (b : PropertyBag) (key : String) : PropertyBag :=
  ⟨eraseFirst (b.isEntry key) b.entries⟩

/-- The value of a key, and the bag without its entry. -/
def take (b : PropertyBag) (key : String) : Option String × PropertyBag :=
  (b.get? key, b.erase key)

/-- The number of properties. -/
def size (b : PropertyBag) : Nat := b.entries.length

/-- The properties in key order. -/
def toMap (b : PropertyBag) : Ordered.SortedMap String String :=
  Ordered.SortedMap.ofList b.entries

end PropertyBag

end Tabular.Definition
