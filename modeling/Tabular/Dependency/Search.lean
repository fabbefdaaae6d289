import Tabular.Ordered.FirstSeen

/-!
# Breadth-first search

A search goes on in rounds. A round is what can be reached by one more step from the
round before and was not met yet, in the order in which it is met; the rounds together
list what can be reached, the nearest first. The start itself is never listed, also if a
way leads back to it.

Every round has something new in it, so the number of different things that steps can
lead to bounds the number of rounds, and any larger bound gives the same list.
-/

namespace Tabular.Dependency

open Ordered

variable {α : Type} [DecidableEq α]

/-- What one step from some elements leads to, without what was met before. -/
def fresh (next : α → List α) (seen round : List α) : List α :=
  (firstSeen (round.flatMap next)).filter (· ∉ seen)

/-- The rounds of a search from the one that comes next, at most `bound` of them. -/
def rounds (next : α → List α) : (bound : Nat) → (seen round : List α) → List (List α)
  | 0, _, _ => []
  | _ + 1, _, [] => []
  | n + 1, seen, round =>
      round :: rounds next n (seen ++ round) (fresh next (seen ++ round) round)

/-- All that can be reached from a start, the nearest first. -/
def search (next : α → List α) (bound : Nat) (start : α) : List α :=
  (rounds next bound [start] (fresh next [start] [start])).flatten

theorem mem_fresh {next : α → List α} {seen round : List α} {x : α} :
    x ∈ fresh next seen round ↔ (∃ y ∈ round, x ∈ next y) ∧ x ∉ seen := by
  simp [fresh, mem_firstSeen]

theorem nodup_fresh (next : α → List α) (seen round : List α) :
    (fresh next seen round).Nodup :=
  (nodup_firstSeen _).filter _

end Tabular.Dependency
