import Tabular.Dependency.Cache
import Tabular.Proofs.Ordered.SortedMap

/-!
# What a cache keeps

A cache is read through the trees it keeps under lowercase keys and depths. Inserting
changes the one that is asked for and no other, a question that finds its tree changes
none, and adopting a fingerprint after the cache was invalidated leaves none.
-/

namespace Tabular.Dependency.Cache

open Ordered Text

/-- The tree that is kept under a lowercase key and a depth. -/
def kept? (c : Cache) (folded : String) (depth : Nat) : Option Tree :=
  (c.trees.get? folded).bind (·.get? depth)

variable {c : Cache} {key : Key} {depth : Nat}

theorem find?_eq_kept? (c : Cache) (key : Key) (depth : Nat) :
    c.find? key depth = c.kept? (fold key) depth := rfl

theorem kept?_insert (c : Cache) (key : Key) (depth : Nat) (tree : Tree) (folded : String)
    (d : Nat) :
    (c.insert key depth tree).kept? folded d =
      if folded = fold key ∧ d = depth then some tree else c.kept? folded d := by
  rw [kept?, kept?, insert, SortedMap.get?_insert_ite]
  by_cases hkey : folded = fold key
  · subst hkey
    rw [if_pos rfl, Option.bind_some, SortedMap.get?_insert_ite]
    cases hold : c.trees.get? (fold key) with
    | none => simp
    | some old => simp
  · rw [if_neg hkey, if_neg fun h => hkey h.1]

/-- A tree that is kept is given, and counted as a hit; any other is made, and kept if there
is one. -/
theorem getOrInsert_cases (c : Cache) (key : Key) (depth : Nat) (make : Unit → Option Tree) :
    (∃ tree, c.find? key depth = some tree
        ∧ c.getOrInsert key depth make = (some tree, { c with hits := c.hits + 1 }))
      ∨ (c.find? key depth = none ∧ make () = none
        ∧ c.getOrInsert key depth make = (none, { c with misses := c.misses + 1 }))
      ∨ ∃ tree, c.find? key depth = none ∧ make () = some tree
        ∧ c.getOrInsert key depth make =
          (some tree, { c with misses := c.misses + 1 }.insert key depth tree) := by
  cases hfind : c.find? key depth with
  | some tree =>
      refine Or.inl ⟨tree, rfl, ?_⟩
      simp only [getOrInsert, get, hfind]
  | none =>
      cases hmake : make () with
      | none =>
          refine Or.inr (Or.inl ⟨rfl, rfl, ?_⟩)
          simp only [getOrInsert, get, hfind, hmake]
      | some tree =>
          refine Or.inr (Or.inr ⟨tree, rfl, rfl, ?_⟩)
          simp only [getOrInsert, get, hfind, hmake]

theorem getOrInsert_fst (make : Unit → Option Tree) :
    (c.getOrInsert key depth make).1 = (c.find? key depth).or (make ()) := by
  rcases getOrInsert_cases c key depth make with
    ⟨tree, hfind, hget⟩ | ⟨hfind, hmake, hget⟩ | ⟨tree, hfind, hmake, hget⟩
  · rw [hget, hfind, Option.some_or]
  · rw [hget, hfind, hmake, Option.or_none]
  · rw [hget, hfind, hmake, Option.none_or]

/-- What was given is kept, and all else stays. -/
theorem kept?_getOrInsert (make : Unit → Option Tree) (folded : String) (d : Nat) :
    (c.getOrInsert key depth make).2.kept? folded d =
      if folded = fold key ∧ d = depth then (c.find? key depth).or (make ())
      else c.kept? folded d := by
  have hsame : folded = fold key ∧ d = depth → c.kept? folded d = c.find? key depth := by
    rintro ⟨rfl, rfl⟩
    exact (find?_eq_kept? c key d).symm
  rcases getOrInsert_cases c key depth make with
    ⟨tree, hfind, hget⟩ | ⟨hfind, hmake, hget⟩ | ⟨tree, hfind, hmake, hget⟩
  · rw [hget, hfind, Option.some_or, ← hfind]
    exact (ite_eq_right_iff.mpr fun h => (hsame h).symm).symm
  · rw [hget, hfind, hmake, Option.or_none, ← hfind]
    exact (ite_eq_right_iff.mpr fun h => (hsame h).symm).symm
  · rw [hget, hfind, hmake, Option.none_or, kept?_insert]
    rfl

theorem fingerprint_getOrInsert (make : Unit → Option Tree) :
    (c.getOrInsert key depth make).2.fingerprint = c.fingerprint := by
  rcases getOrInsert_cases c key depth make with
    ⟨tree, -, hget⟩ | ⟨-, -, hget⟩ | ⟨tree, -, -, hget⟩
  · rw [hget]
  · rw [hget]
  · rw [hget]
    rfl

/-- A cache that was invalidated is empty for the next catalog. -/
theorem adopt_invalidate (c : Cache) (fingerprint : String) :
    c.invalidate.adopt fingerprint =
      (true, { c with trees := ∅, fingerprint := some fingerprint }) := by
  rw [adopt, if_neg (by simp [invalidate])]
  rfl

end Tabular.Dependency.Cache
