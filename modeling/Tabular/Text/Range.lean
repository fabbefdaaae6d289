/-!
# Classes of characters, as ranges of codes

A class of characters is written down as the list of its maximal runs of codes,
lowest first. Because the runs are in order, a search may stop at the first run
that starts above the code it is looking for.
-/

namespace Tabular.Text

/-- Whether `n` lies in one of the closed ranges, which are listed lowest first. -/
def inRanges (n : Nat) : List (Nat × Nat) → Bool
  | [] => false
  | (low, high) :: rest =>
      if n < low then false else if n ≤ high then true else inRanges n rest

@[simp] theorem inRanges_nil (n : Nat) : inRanges n [] = false := rfl

/-- A code that is found lies in one of the ranges. -/
theorem exists_mem_of_inRanges {n : Nat} {ranges : List (Nat × Nat)}
    (h : inRanges n ranges = true) : ∃ r ∈ ranges, r.1 ≤ n ∧ n ≤ r.2 := by
  induction ranges with
  | nil => simp at h
  | cons r rest ih =>
      obtain ⟨low, high⟩ := r
      simp only [inRanges] at h
      split at h
      · cases h
      · next hlow =>
          split at h
          · next hhigh => exact ⟨(low, high), by simp, by omega, hhigh⟩
          · obtain ⟨r, hr, hn⟩ := ih h
            exact ⟨r, by simp [hr], hn⟩

end Tabular.Text
