/-!
# Lists without repetitions

Some answers name each thing once, in the order in which it was first met. `addNew` puts
an element at the end of such a list unless it is there already, and `firstSeen` keeps
the first occurrence of each element of a list.
-/

namespace Tabular.Ordered

variable {α : Type} [DecidableEq α]

/-- A list with an element at its end, unless it holds the element already. -/
def addNew (xs : List α) (x : α) : List α := if x ∈ xs then xs else xs ++ [x]

/-- The first occurrences of the elements of a list, in order. -/
def firstSeen (xs : List α) : List α := xs.foldl addNew []

theorem mem_addNew {xs : List α} {x y : α} : y ∈ addNew xs x ↔ y ∈ xs ∨ y = x := by
  unfold addNew
  split
  · next h => exact ⟨.inl, fun h' => h'.elim id fun e => e ▸ h⟩
  · simp

theorem nodup_addNew {xs : List α} {x : α} (h : xs.Nodup) : (addNew xs x).Nodup := by
  unfold addNew
  split
  · exact h
  · next hx =>
      refine List.nodup_append.mpr ⟨h, by simp, ?_⟩
      rintro a ha b hb rfl
      exact hx (List.mem_singleton.mp hb ▸ ha)

theorem mem_foldl_addNew {xs acc : List α} {x : α} :
    x ∈ xs.foldl addNew acc ↔ x ∈ acc ∨ x ∈ xs := by
  induction xs generalizing acc with
  | nil => simp
  | cons y ys ih => simp [ih, mem_addNew, or_assoc]

theorem nodup_foldl_addNew {xs acc : List α} (h : acc.Nodup) :
    (xs.foldl addNew acc).Nodup := by
  induction xs generalizing acc with
  | nil => exact h
  | cons y ys ih => exact ih (nodup_addNew h)

/-- Nothing is lost and nothing added. -/
theorem mem_firstSeen {xs : List α} {x : α} : x ∈ firstSeen xs ↔ x ∈ xs := by
  simp [firstSeen, mem_foldl_addNew]

/-- No element is listed twice. -/
theorem nodup_firstSeen (xs : List α) : (firstSeen xs).Nodup :=
  nodup_foldl_addNew List.nodup_nil

end Tabular.Ordered
