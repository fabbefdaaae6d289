import Tabular.Dependency.Tree

/-!
# Trees that were already made

A cache keeps the trees of one catalog, known by its fingerprint, for the key and the
depth they were asked for; keys count in lowercase. Another fingerprint empties it. It
also counts how often it could answer and how often it could not.
-/

namespace Tabular.Dependency

open Ordered Text

/-- Trees under their lowercase keys and depths. -/
structure Cache where
  trees : SortedMap String (SortedMap Nat Tree) := ∅
  /-- The fingerprint of the catalog that the trees were made from. -/
  fingerprint : Option String := none
  hits : Nat := 0
  misses : Nat := 0

namespace Cache

/-- The tree under a key and a depth. -/
def find? (c : Cache) (key : Key) (depth : Nat) : Option Tree :=
  (c.trees.get? (fold key)).bind (·.get? depth)

/-- How many trees there are. -/
def size (c : Cache) : Nat := c.trees.toList.foldl (fun n e => n + e.2.size) 0

/-- The tree under a key and a depth, and the cache with the question counted. -/
def get (c : Cache) (key : Key) (depth : Nat) : Option Tree × Cache :=
  match c.find? key depth with
  | some tree => (some tree, { c with hits := c.hits + 1 })
  | none => (none, { c with misses := c.misses + 1 })

/-- Puts a tree under a key and a depth. -/
def insert (c : Cache) (key : Key) (depth : Nat) (tree : Tree) : Cache :=
  let ofKey := (c.trees.get? (fold key)).getD ∅
  { c with trees := c.trees.insert (fold key) (ofKey.insert depth tree) }

/-- The tree under a key and a depth, made and kept if there is none. -/
def getOrInsert (c : Cache) (key : Key) (depth : Nat) (make : Unit → Option Tree) :
    Option Tree × Cache :=
  match c.get key depth with
  | (some tree, c) => (some tree, c)
  | (none, c) =>
      match make () with
      | none => (none, c)
      | some tree => (some tree, c.insert key depth tree)

/-- The cache without its trees. -/
def clear (c : Cache) : Cache := { c with trees := ∅ }

/-- The cache without its trees and its fingerprint. -/
def invalidate (c : Cache) : Cache := { c.clear with fingerprint := none }

/-- The cache for the catalog with a fingerprint, and whether it had to be emptied. -/
def adopt (c : Cache) (fingerprint : String) : Bool × Cache :=
  if c.fingerprint = some fingerprint then (false, c)
  else (true, { c.clear with fingerprint := some fingerprint })

end Cache

end Tabular.Dependency
