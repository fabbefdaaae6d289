import Mathlib.Data.Finset.Card
import Mathlib.Data.Finset.SDiff
import Mathlib.Data.List.Dedup
import Mathlib.Logic.Relation
import Tabular.Dependency.Search

/-!
# A search lists what can be reached

The rounds of a search are cut off by a bound, so what has to be shown is that the bound
never decides. Both halves are inductions on it.

What a search lists can be reached: every round comes from the one before by steps, and
nothing enters a round that was seen already, the start included.

What can be reached is listed: seen elements and the next round together hold whatever
one step from a seen element leads to. The invariant survives a round, and as long as a
round is not empty it takes something new out of the finitely many ends of steps. When
these are used up the round is empty, and the seen elements are closed under steps.
-/

namespace Tabular.Dependency

variable {α : Type} [DecidableEq α] {next : α → List α}

/-- The ends of steps that were not seen yet. -/
def unseen (ends seen : List α) : Finset α := ends.toFinset \ seen.toFinset

theorem unseen_append_lt {ends seen round : List α} {x : α} (hx : x ∈ round)
    (hends : x ∈ ends) (hseen : x ∉ seen) :
    (unseen ends (seen ++ round)).card < (unseen ends seen).card := by
  apply Finset.card_lt_card
  rw [Finset.ssubset_iff_of_subset]
  · refine ⟨x, ?_, ?_⟩
    · simp [unseen, hends, hseen]
    · simp [unseen, hx]
  · intro y hy
    simp only [unseen, Finset.mem_sdiff, List.mem_toFinset, List.mem_append, not_or] at hy ⊢
    exact ⟨hy.1, hy.2.1⟩

theorem card_unseen_le (ends seen : List α) : (unseen ends seen).card ≤ ends.length :=
  calc (unseen ends seen).card
    _ ≤ ends.toFinset.card := Finset.card_le_card Finset.sdiff_subset
    _ ≤ ends.length := List.toFinset_card_le ends

theorem rounds_nil (bound : Nat) (seen : List α) : rounds next bound seen [] = [] := by
  cases bound <;> rfl

theorem rounds_cons (n : Nat) (seen : List α) (x : α) (xs : List α) :
    rounds next (n + 1) seen (x :: xs) = (x :: xs) :: rounds next n (seen ++ x :: xs)
      (fresh next (seen ++ x :: xs) (x :: xs)) := rfl

theorem flatten_rounds_cons (n : Nat) (seen : List α) (x : α) (xs : List α) :
    (rounds next (n + 1) seen (x :: xs)).flatten =
      (x :: xs) ++ (rounds next n (seen ++ x :: xs)
        (fresh next (seen ++ x :: xs) (x :: xs))).flatten := rfl

theorem not_mem_seen_of_mem_rounds {bound : Nat} {seen round : List α}
    (hround : ∀ x ∈ round, x ∉ seen) :
    ∀ x ∈ (rounds next bound seen round).flatten, x ∉ seen := by
  induction bound generalizing seen round with
  | zero => intro x hx; simp [rounds] at hx
  | succ n ih =>
      intro x hx
      cases round with
      | nil => simp [rounds_nil] at hx
      | cons y ys =>
          rw [flatten_rounds_cons, List.mem_append] at hx
          rcases hx with hx | hx
          · exact hround x hx
          · have hfresh : ∀ z ∈ fresh next (seen ++ y :: ys) (y :: ys),
                z ∉ seen ++ y :: ys := fun z hz => (mem_fresh.mp hz).2
            have hout := ih hfresh x hx
            rw [List.mem_append, not_or] at hout
            exact hout.1

theorem reached_of_mem_rounds {start : α} {bound : Nat} {seen round : List α}
    (hround : ∀ x ∈ round, Relation.ReflTransGen (fun a b => b ∈ next a) start x) :
    ∀ x ∈ (rounds next bound seen round).flatten,
      Relation.ReflTransGen (fun a b => b ∈ next a) start x := by
  induction bound generalizing seen round with
  | zero => intro x hx; simp [rounds] at hx
  | succ n ih =>
      intro x hx
      cases round with
      | nil => simp [rounds_nil] at hx
      | cons y ys =>
          rw [flatten_rounds_cons, List.mem_append] at hx
          rcases hx with hx | hx
          · exact hround x hx
          · refine ih (fun z hz => ?_) x hx
            obtain ⟨⟨w, hw, hwz⟩, -⟩ := mem_fresh.mp hz
            exact (hround w hw).tail hwz

theorem closed_rounds_nil {bound : Nat} {seen : List α}
    (hinv : ∀ y ∈ seen, ∀ z ∈ next y, z ∈ seen ∨ z ∈ ([] : List α)) :
    ∀ y ∈ seen ++ (rounds next bound seen []).flatten, ∀ z ∈ next y,
      z ∈ seen ++ (rounds next bound seen []).flatten := by
  intro y hy z hz
  rw [rounds_nil, List.flatten_nil, List.append_nil] at hy ⊢
  rcases hinv y hy z hz with h | h
  · exact h
  · cases h

/-- The invariant of a search: one step from what was seen stays in what was seen or
leads to the next round. -/
theorem closed_rounds {ends : List α} (hends : ∀ a, ∀ b ∈ next a, b ∈ ends) {bound : Nat}
    {seen round : List α} (hnew : ∀ x ∈ round, x ∈ ends ∧ x ∉ seen)
    (hinv : ∀ y ∈ seen, ∀ z ∈ next y, z ∈ seen ∨ z ∈ round)
    (hbound : (unseen ends seen).card ≤ bound) :
    ∀ y ∈ seen ++ (rounds next bound seen round).flatten, ∀ z ∈ next y,
      z ∈ seen ++ (rounds next bound seen round).flatten := by
  induction bound generalizing seen round with
  | zero =>
      have hempty : round = [] := by
        rw [List.eq_nil_iff_forall_not_mem]
        intro x hx
        have hlt := unseen_append_lt hx (hnew x hx).1 (hnew x hx).2
        omega
      subst hempty
      exact closed_rounds_nil hinv
  | succ n ih =>
      cases round with
      | nil => exact closed_rounds_nil hinv
      | cons x xs =>
          have hnew' : ∀ z ∈ fresh next (seen ++ x :: xs) (x :: xs),
              z ∈ ends ∧ z ∉ seen ++ x :: xs := by
            intro z hz
            obtain ⟨⟨w, -, hwz⟩, hz'⟩ := mem_fresh.mp hz
            exact ⟨hends w z hwz, hz'⟩
          have hinv' : ∀ y ∈ seen ++ x :: xs, ∀ z ∈ next y,
              z ∈ seen ++ x :: xs ∨ z ∈ fresh next (seen ++ x :: xs) (x :: xs) := by
            intro y hy z hz
            by_cases hseen : z ∈ seen ++ x :: xs
            · exact Or.inl hseen
            · refine Or.inr (mem_fresh.mpr ⟨?_, hseen⟩)
              rcases List.mem_append.mp hy with hy | hy
              · exact absurd (List.mem_append.mpr (hinv y hy z hz)) hseen
              · exact ⟨y, hy, hz⟩
          have hx : x ∈ x :: xs := List.mem_cons_self
          have hlt := unseen_append_lt hx (hnew x hx).1 (hnew x hx).2
          rw [flatten_rounds_cons, ← List.append_assoc]
          exact ih hnew' hinv' (by omega)

/-- A search lists exactly what steps lead to, its start aside, as soon as its bound
covers the ends of all steps. -/
theorem mem_search {ends : List α} (hends : ∀ a, ∀ b ∈ next a, b ∈ ends) {bound : Nat}
    (hbound : ends.length ≤ bound) {start x : α} :
    x ∈ search next bound start ↔
      x ≠ start ∧ Relation.ReflTransGen (fun a b => b ∈ next a) start x := by
  have hfirst : ∀ y ∈ fresh next [start] [start], y ∈ next start ∧ y ∉ [start] := by
    intro y hy
    obtain ⟨⟨w, hw, hwy⟩, hy'⟩ := mem_fresh.mp hy
    rw [List.mem_singleton] at hw
    exact ⟨hw ▸ hwy, hy'⟩
  constructor
  · intro hx
    refine ⟨fun heq => ?_, ?_⟩
    · refine not_mem_seen_of_mem_rounds (fun y hy => (hfirst y hy).2) x hx ?_
      rw [heq]
      exact List.mem_singleton_self start
    · exact reached_of_mem_rounds
        (fun y hy => Relation.ReflTransGen.single (hfirst y hy).1) x hx
  · rintro ⟨hne, hreach⟩
    have hcard := (card_unseen_le ends [start]).trans hbound
    have hclosed : ∀ y ∈ [start] ++ search next bound start, ∀ z ∈ next y,
        z ∈ [start] ++ search next bound start := by
      refine closed_rounds hends ?_ ?_ hcard
      · exact fun y hy => ⟨hends start y (hfirst y hy).1, (hfirst y hy).2⟩
      · intro y hy z hz
        by_cases hseen : z ∈ [start]
        · exact Or.inl hseen
        · exact Or.inr (mem_fresh.mpr ⟨⟨y, hy, hz⟩, hseen⟩)
    have hall : x ∈ [start] ++ search next bound start := by
      induction hreach with
      | refl => exact List.mem_append_left _ (List.mem_singleton_self start)
      | @tail y z _ hyz ih =>
          by_cases hy : y = start
          · exact hclosed y (List.mem_append_left _ (by simp [hy])) z hyz
          · exact hclosed y (ih hy) z hyz
    rcases List.mem_append.mp hall with h | h
    · exact absurd (List.mem_singleton.mp h) hne
    · exact h

end Tabular.Dependency
