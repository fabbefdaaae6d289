import Tabular.Decimal
import Tabular.Ordered.SortedMap

/-!
# JSON values

The values that catalogs, reports and answers are written in. An object keeps its
members in the order they were given, and may hold a key twice as long as it has only
been read; `settle` puts the keys in order and gives each the last of its values.

One constructor stands for text that is well formed and yet names no value, such as
a string with half of a surrogate pair. It may be stepped over, in a member that
nobody asks for, but never read.
-/

namespace Tabular.Json

/-- A JSON value. Whole numbers are kept apart from those written with a fraction or
an exponent. -/
inductive Value where
  | null
  | bool (b : Bool)
  | int (n : Int)
  | decimal (mantissa exponent : Int)
  | str (s : String)
  | arr (items : List Value)
  | obj (members : List (String × Value))
  | unreadable
  deriving Inhabited

namespace Value

/-- A natural number as a value. -/
def nat (n : Nat) : Value := .int n

/-- The value under a key in a list of members, the first if there are several. -/
def lookup (key : String) : List (String × Value) → Option Value
  | [] => none
  | (k, v) :: rest => if k = key then some v else lookup key rest

/-- The member of an object under a key; other values have no members. -/
def get? (v : Value) (key : String) : Option Value :=
  match v with
  | .obj members => lookup key members
  | _ => none

/-- The value reached by a path of keys. -/
def path? (v : Value) : List String → Option Value
  | [] => some v
  | key :: rest => (v.get? key).bind (path? · rest)

/-- The items of an array; other values have none. -/
def items : Value → List Value
  | .arr items => items
  | _ => []

/-- The text of a string value. -/
def str? : Value → Option String
  | .str s => some s
  | _ => none

mutual

/-- How many values stand inside one another, the value itself counted. -/
def height : Value → Nat
  | .arr items => heightItems items + 1
  | .obj members => heightMembers members + 1
  | _ => 1

/-- The largest height of some items. -/
def heightItems : List Value → Nat
  | [] => 0
  | v :: rest => max (height v) (heightItems rest)

/-- The largest height of the values of some members. -/
def heightMembers : List (String × Value) → Nat
  | [] => 0
  | (_, v) :: rest => max (height v) (heightMembers rest)

end

mutual

/-- The document that a value read from text stands for, if it stands for one: no part
of it is unreadable or beyond the doubles, and arrays and objects nest at most `depth` deep.
Members come to stand in key order, and of several with one key the last wins. -/
def settle (depth : Nat) : Value → Option Value
  | .null => some .null
  | .bool b => some (.bool b)
  | .int n => if Decimal.overflowsInSteps n.natAbs 0 then none else some (.int n)
  | .decimal m e => if Decimal.overflowsInSteps m.natAbs e then none else some (.decimal m e)
  | .str s => some (.str s)
  | .arr items =>
      match depth with
      | 0 => none
      | depth + 1 => (settleItems depth items).map .arr
  | .obj members =>
      match depth with
      | 0 => none
      | depth + 1 => (settleMembers depth [] members).map .obj
  | .unreadable => none

/-- `settle` on each item. -/
def settleItems (depth : Nat) : List Value → Option (List Value)
  | [] => some []
  | v :: rest => do
      let v ← settle depth v
      let rest ← settleItems depth rest
      return v :: rest

/-- `settle` on each member, added to those before it. -/
def settleMembers (depth : Nat) (before : List (String × Value)) :
    List (String × Value) → Option (List (String × Value))
  | [] => some before
  | (k, v) :: rest => do
      let v ← settle depth v
      settleMembers depth (Ordered.insertEntry k v before) rest

end

end Value

end Tabular.Json
