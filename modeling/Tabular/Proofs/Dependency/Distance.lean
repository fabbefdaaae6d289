import Mathlib.Order.Lattice.Nat
import Tabular.Proofs.Dependency.Reach

/-!
# The nearest come first

The rounds of a search go by distance. When a round is due, what was seen is what fewer
steps lead to, and the round itself is what this many steps lead to and no fewer. One more
step from the round leads to something seen or to something one step farther away, so the
next round inherits both. Rounds therefore share nothing, and the list they make goes from
the nearest to the farthest.

The bound of a search is not what ends it: once it covers the ends of all steps, more
rounds find nothing.
-/

namespace Tabular.Dependency

open Relation (ReflTransGen TransGen)

/-! ## Distances -/

section Distance

variable {α : Type} {r : α → α → Prop} {start x : α}

/-- Whether a number of steps leads from a start to an element. -/
inductive Steps (r : α → α → Prop) (start : α) : Nat → α → Prop
  | refl : Steps r start 0 start
  | tail {n : Nat} {x y : α} : Steps r start n x → r x y → Steps r start (n + 1) y

/-- The least number of steps that leads from a start to an element. -/
noncomputable def distance (r : α → α → Prop) (start x : α) : Nat :=
  sInf {n | Steps r start n x}

theorem distance_eq {n : Nat} (h : Steps r start n x)
    (hleast : ∀ m < n, ¬ Steps r start m x) : distance r start x = n := by
  have hmem : Steps r start (distance r start x) x :=
    Nat.sInf_mem (s := {n | Steps r start n x}) ⟨n, h⟩
  refine le_antisymm (Nat.sInf_le h) ?_
  by_contra hlt
  exact hleast _ (not_le.mp hlt) hmem

/-- What is listed is all that steps lead to from a start, the start aside, each element
once and the nearest first. -/
structure ListsReached (r : α → α → Prop) (start : α) (xs : List α) : Prop where
  mem_iff : ∀ x, x ∈ xs ↔ x ≠ start ∧ TransGen r start x
  nodup : xs.Nodup
  nearestFirst : xs.Pairwise fun x y => distance r start x ≤ distance r start y

end Distance

/-! ## Rounds -/

section Rounds

variable {α : Type} [DecidableEq α] {next : α → List α} {start x : α} {bound k : Nat}
  {seen round : List α}

/-- A round is due: fewer steps lead to what was seen, and this many to the round. -/
structure RoundDue (next : α → List α) (start : α) (k : Nat) (seen round : List α) :
    Prop where
  seen_iff : ∀ x, x ∈ seen ↔ ∃ n < k, Steps (fun a b => b ∈ next a) start n x
  round_iff : ∀ x, x ∈ round ↔ x ∉ seen ∧ Steps (fun a b => b ∈ next a) start k x

namespace RoundDue

theorem first (next : α → List α) (start : α) :
    RoundDue next start 1 [start] (fresh next [start] [start]) := by
  refine ⟨?_, ?_⟩
  · intro x
    rw [List.mem_singleton]
    constructor
    · rintro rfl
      exact ⟨0, Nat.one_pos, .refl⟩
    · rintro ⟨n, hn, hsteps⟩
      obtain rfl : n = 0 := by omega
      cases hsteps
      rfl
  · intro x
    rw [mem_fresh, and_comm]
    refine and_congr_right fun _ => ?_
    constructor
    · rintro ⟨y, hy, hx⟩
      rw [List.mem_singleton] at hy
      exact .tail .refl (hy ▸ hx)
    · rintro (_ | ⟨hsteps, hx⟩)
      cases hsteps
      exact ⟨start, List.mem_singleton_self start, hx⟩

omit [DecidableEq α] in
theorem distance_eq (h : RoundDue next start k seen round) (hx : x ∈ round) :
    distance (fun a b => b ∈ next a) start x = k := by
  obtain ⟨hseen, hsteps⟩ := (h.round_iff x).mp hx
  exact Dependency.distance_eq hsteps
    fun m hm hm' => hseen ((h.seen_iff x).mpr ⟨m, hm, hm'⟩)

/-- After a round the next one is due. -/
theorem after (h : RoundDue next start k seen round) :
    RoundDue next start (k + 1) (seen ++ round) (fresh next (seen ++ round) round) := by
  have hseen : ∀ x, x ∈ seen ++ round ↔
      ∃ n < k + 1, Steps (fun a b => b ∈ next a) start n x := by
    intro x
    rw [List.mem_append, h.round_iff]
    constructor
    · rintro (hx | ⟨-, hsteps⟩)
      · obtain ⟨n, hn, hsteps⟩ := (h.seen_iff x).mp hx
        exact ⟨n, by omega, hsteps⟩
      · exact ⟨k, by omega, hsteps⟩
    · rintro ⟨n, hn, hsteps⟩
      by_cases hx : x ∈ seen
      · exact Or.inl hx
      · have hle : k ≤ n := by
          by_contra hlt
          exact hx ((h.seen_iff x).mpr ⟨n, by omega, hsteps⟩)
        obtain rfl : n = k := by omega
        exact Or.inr ⟨hx, hsteps⟩
  refine ⟨hseen, ?_⟩
  intro x
  rw [mem_fresh, and_comm]
  refine and_congr_right fun hx => ?_
  constructor
  · rintro ⟨y, hy, hyx⟩
    exact .tail ((h.round_iff y).mp hy).2 hyx
  · rintro (_ | @⟨_, y, _, hsteps, hyx⟩)
    refine ⟨y, (h.round_iff y).mpr ⟨fun hy => hx ?_, hsteps⟩, hyx⟩
    -- a step from what was seen earlier leads no farther than to this round
    obtain ⟨n, hn, hsteps⟩ := (h.seen_iff y).mp hy
    exact (hseen x).mpr ⟨n + 1, by omega, .tail hsteps hyx⟩

/-- The rounds that are left list what is at least as far away, the nearest first. -/
theorem nearestFirst (h : RoundDue next start k seen round) :
    ((rounds next bound seen round).flatten.Pairwise fun x y =>
        distance (fun a b => b ∈ next a) start x ≤ distance (fun a b => b ∈ next a) start y)
      ∧ ∀ x ∈ (rounds next bound seen round).flatten,
        k ≤ distance (fun a b => b ∈ next a) start x := by
  induction bound generalizing k seen round with
  | zero => simp [rounds]
  | succ n ih =>
      cases round with
      | nil => simp [rounds_nil]
      | cons y ys =>
          obtain ⟨hpairwise, hfar⟩ := ih h.after
          rw [flatten_rounds_cons]
          constructor
          · refine List.pairwise_append.mpr ⟨?_, hpairwise, ?_⟩
            · refine List.pairwise_of_forall_mem_list fun x hx z hz => ?_
              rw [h.distance_eq hx, h.distance_eq hz]
            · intro x hx z hz
              have hz := hfar z hz
              rw [h.distance_eq hx]
              omega
          · intro x hx
            rcases List.mem_append.mp hx with hx | hx
            · exact (h.distance_eq hx).ge
            · have hx := hfar x hx
              omega

end RoundDue

theorem nodup_rounds (hround : ∀ x ∈ round, x ∉ seen) (hnodup : round.Nodup) :
    (rounds next bound seen round).flatten.Nodup := by
  induction bound generalizing seen round with
  | zero => simp [rounds]
  | succ n ih =>
      cases round with
      | nil => simp [rounds_nil]
      | cons y ys =>
          have hfresh : ∀ x ∈ fresh next (seen ++ y :: ys) (y :: ys),
              x ∉ seen ++ y :: ys := fun x hx => (mem_fresh.mp hx).2
          rw [flatten_rounds_cons]
          refine List.nodup_append'.mpr ⟨hnodup, ih hfresh (nodup_fresh next _ _), ?_⟩
          intro x hx hlater
          exact not_mem_seen_of_mem_rounds hfresh x hlater (List.mem_append_right seen hx)

/-- A bound that covers what was not seen yet is never what ends the rounds. -/
theorem rounds_add {ends : List α} (hends : ∀ a, ∀ b ∈ next a, b ∈ ends)
    (hnew : ∀ x ∈ round, x ∈ ends ∧ x ∉ seen) (hbound : (unseen ends seen).card ≤ bound)
    (more : Nat) : rounds next (bound + more) seen round = rounds next bound seen round := by
  induction bound generalizing seen round with
  | zero =>
      cases round with
      | nil => rw [rounds_nil, rounds_nil]
      | cons y ys =>
          have hy := hnew y List.mem_cons_self
          have hlt := unseen_append_lt (List.mem_cons_self (l := ys)) hy.1 hy.2
          omega
  | succ n ih =>
      cases round with
      | nil => rw [rounds_nil, rounds_nil]
      | cons y ys =>
          have hy := hnew y List.mem_cons_self
          have hlt := unseen_append_lt (List.mem_cons_self (l := ys)) hy.1 hy.2
          have hfresh : ∀ x ∈ fresh next (seen ++ y :: ys) (y :: ys),
              x ∈ ends ∧ x ∉ seen ++ y :: ys := by
            intro x hx
            obtain ⟨⟨z, -, hzx⟩, hx'⟩ := mem_fresh.mp hx
            exact ⟨hends z x hzx, hx'⟩
          rw [Nat.add_right_comm, rounds_cons, rounds_cons, ih hfresh (by omega)]

end Rounds

/-! ## Searches -/

section Search

variable {α : Type} [DecidableEq α] {next : α → List α} {ends : List α} {bound : Nat}

theorem search_add (hends : ∀ a, ∀ b ∈ next a, b ∈ ends) (hbound : ends.length ≤ bound)
    (start : α) (more : Nat) :
    search next (bound + more) start = search next bound start := by
  have hnew : ∀ x ∈ fresh next [start] [start], x ∈ ends ∧ x ∉ [start] := by
    intro x hx
    obtain ⟨⟨y, -, hyx⟩, hx'⟩ := mem_fresh.mp hx
    exact ⟨hends y x hyx, hx'⟩
  rw [search, rounds_add hends hnew ((card_unseen_le ends [start]).trans hbound), search]

/-- A search whose bound covers the ends of all steps lists what they lead to. -/
theorem listsReached_search (hends : ∀ a, ∀ b ∈ next a, b ∈ ends)
    (hbound : ends.length ≤ bound) (start : α) :
    ListsReached (fun a b => b ∈ next a) start (search next bound start) where
  mem_iff x := by
    rw [mem_search hends hbound]
    refine and_congr_right fun hne => ?_
    rw [Relation.reflTransGen_iff_eq_or_transGen, or_iff_right hne]
  nodup := nodup_rounds (fun x hx => (mem_fresh.mp hx).2) (nodup_fresh next _ _)
  nearestFirst := (RoundDue.first next start).nearestFirst.1

end Search

namespace Graph

/-- All dependents and all dependencies of an object are what edges lead to, backward and
forward, the object itself aside, each once and the nearest first. No search is ended by
its bound. And an object is a dependency of another one in the end exactly when the other
one is a dependent of it. -/
theorem listsReached_allDependents_allDependencies (g : Graph) :
    (∀ key, ListsReached (Function.swap g.DependsOn) (g.canonical key) (g.allDependents key)
        ∧ ListsReached g.DependsOn (g.canonical key) (g.allDependencies key))
      ∧ (∀ key more,
        search g.backward (g.edges.length + more) (g.canonical key) = g.allDependents key
          ∧ search g.forward (g.edges.length + more) (g.canonical key) =
            g.allDependencies key)
      ∧ ∀ a b, g.canonical b ∈ g.allDependencies a ↔ g.canonical a ∈ g.allDependents b := by
  refine ⟨?_, ?_, ?_⟩
  · intro key
    have hbackward := listsReached_search g.ends_backward (List.length_map _).le
      (g.canonical key)
    have hforward := listsReached_search g.ends_forward (List.length_map _).le
      (g.canonical key)
    rw [steps_backward] at hbackward
    rw [steps_forward] at hforward
    exact ⟨hbackward, hforward⟩
  · intro key more
    exact ⟨search_add g.ends_backward (List.length_map _).le _ more,
      search_add g.ends_forward (List.length_map _).le _ more⟩
  · intro a b
    rw [allDependencies, allDependents, mem_search_forward, mem_search_backward]
    exact and_congr_left' ne_comm

end Graph

end Tabular.Dependency
