/-!
# Finite sets in order

A set is the strictly increasing list of its elements, so it has one form only: two
sets with the same elements are equal, and listing a set needs no sorting. Answers
that name several objects are sets of this kind, which is what makes them independent
of the order in which the objects were found.
-/

namespace Tabular.Ordered

variable {α : Type} [Ord α]

/-- Puts an element into a strictly increasing list, unless it is there already. -/
def insertSorted (x : α) : List α → List α
  | [] => [x]
  | y :: ys =>
      match compare x y with
      | .lt => x :: y :: ys
      | .eq => y :: ys
      | .gt => y :: insertSorted x ys

/-- A list in strictly increasing order. -/
def StrictlySorted (xs : List α) : Prop := xs.Pairwise fun a b => compare a b = .lt

theorem mem_insertSorted [Std.LawfulEqOrd α] {x y : α} {xs : List α} :
    y ∈ insertSorted x xs ↔ y = x ∨ y ∈ xs := by
  induction xs with
  | nil => simp [insertSorted]
  | cons z zs ih =>
      simp only [insertSorted]
      split
      · simp
      · next h =>
          have hxz := Std.LawfulEqOrd.eq_of_compare h
          subst hxz
          simp
      · simp only [List.mem_cons, ih]
        constructor
        · rintro (h | h | h) <;> simp [h]
        · rintro (h | h | h) <;> simp [h]

theorem strictlySorted_insertSorted [Std.TransOrd α] [Std.LawfulEqOrd α] {x : α}
    {xs : List α} (h : StrictlySorted xs) : StrictlySorted (insertSorted x xs) := by
  induction xs with
  | nil => simp [insertSorted, StrictlySorted]
  | cons z zs ih =>
      obtain ⟨hz, hzs⟩ := List.pairwise_cons.mp h
      simp only [insertSorted]
      split
      · next hlt =>
          refine List.pairwise_cons.mpr ⟨fun a ha => ?_, h⟩
          rcases List.mem_cons.mp ha with rfl | ha
          · exact hlt
          · exact Std.TransCmp.lt_trans hlt (hz a ha)
      · exact h
      · next hgt =>
          refine List.pairwise_cons.mpr ⟨fun a ha => ?_, ih hzs⟩
          rcases mem_insertSorted.mp ha with rfl | ha
          · exact Std.OrientedCmp.lt_of_gt hgt
          · exact hz a ha

variable (α) in
/-- A finite set, held as the strictly increasing list of its elements. -/
structure SortedSet where
  toList : List α
  sorted : StrictlySorted toList

namespace SortedSet

/-- The set with no element. -/
def empty : SortedSet α := ⟨[], List.Pairwise.nil⟩

instance : EmptyCollection (SortedSet α) := ⟨empty⟩

instance : Inhabited (SortedSet α) := ⟨empty⟩

instance : Membership α (SortedSet α) := ⟨fun s x => x ∈ s.toList⟩

instance [DecidableEq α] (x : α) (s : SortedSet α) : Decidable (x ∈ s) :=
  inferInstanceAs (Decidable (x ∈ s.toList))

instance [DecidableEq α] : DecidableEq (SortedSet α) := fun s t =>
  match decEq s.toList t.toList with
  | isTrue h => isTrue (by cases s; cases t; simp_all)
  | isFalse h => isFalse (by rintro rfl; exact h rfl)

/-- The number of elements. -/
def size (s : SortedSet α) : Nat := s.toList.length

/-- Whether the set has no element. -/
def isEmpty (s : SortedSet α) : Bool := s.toList.isEmpty

/-- The elements that pass a test. -/
def filter (keep : α → Bool) (s : SortedSet α) : SortedSet α :=
  ⟨s.toList.filter keep, s.sorted.filter _⟩

theorem mem_filter {keep : α → Bool} {s : SortedSet α} {x : α} :
    x ∈ s.filter keep ↔ x ∈ s ∧ keep x = true := List.mem_filter

variable [Std.TransOrd α] [Std.LawfulEqOrd α]

/-- The set with one more element. -/
def insert (s : SortedSet α) (x : α) : SortedSet α :=
  ⟨insertSorted x s.toList, strictlySorted_insertSorted s.sorted⟩

/-- The set of the elements of a list. -/
def ofList (xs : List α) : SortedSet α := xs.foldl insert ∅

/-- The set of the elements of two sets. -/
def union (s t : SortedSet α) : SortedSet α := t.toList.foldl insert s

instance : Union (SortedSet α) := ⟨union⟩

theorem mem_insert {s : SortedSet α} {x y : α} : y ∈ s.insert x ↔ y = x ∨ y ∈ s :=
  mem_insertSorted

omit [Std.TransOrd α] [Std.LawfulEqOrd α] in
@[simp] theorem mem_toList {s : SortedSet α} {x : α} : x ∈ s.toList ↔ x ∈ s := Iff.rfl

omit [Std.TransOrd α] [Std.LawfulEqOrd α] in
@[simp] theorem not_mem_empty {x : α} : ¬ x ∈ (∅ : SortedSet α) := List.not_mem_nil

theorem mem_foldl_insert {xs : List α} {s : SortedSet α} {x : α} :
    x ∈ xs.foldl insert s ↔ x ∈ xs ∨ x ∈ s := by
  induction xs generalizing s with
  | nil => simp
  | cons y ys ih =>
      simp only [List.foldl_cons, ih, mem_insert, List.mem_cons]
      constructor
      · rintro (h | h | h) <;> simp [h]
      · rintro ((h | h) | h) <;> simp [h]

theorem mem_ofList {xs : List α} {x : α} : x ∈ ofList xs ↔ x ∈ xs := by
  simp [ofList, mem_foldl_insert]

theorem mem_union {s t : SortedSet α} {x : α} : x ∈ s ∪ t ↔ x ∈ s ∨ x ∈ t := by
  change x ∈ t.toList.foldl insert s ↔ _
  rw [mem_foldl_insert, mem_toList, or_comm]

omit [Std.LawfulEqOrd α] in
theorem nodup_of_strictlySorted {xs : List α} (h : StrictlySorted xs) : xs.Nodup :=
  h.imp fun {a b} hab e => by subst e; simp [Std.ReflCmp.compare_self] at hab

omit [Std.LawfulEqOrd α] in
/-- A set is known by its elements. -/
theorem ext {s t : SortedSet α} (h : ∀ x, x ∈ s ↔ x ∈ t) : s = t := by
  have hlt : ∀ a b, a ∈ s.toList → b ∈ t.toList →
      compare a b = .lt → compare b a = .lt → a = b :=
    fun _ _ _ _ hab hba => absurd hba (Std.OrientedCmp.not_lt_of_lt hab)
  have hperm := (List.perm_ext_iff_of_nodup (nodup_of_strictlySorted s.sorted)
    (nodup_of_strictlySorted t.sorted)).mpr h
  have hl := List.Perm.eq_of_pairwise hlt s.sorted t.sorted hperm
  cases s
  cases t
  simp_all

theorem union_assoc (s t u : SortedSet α) : s ∪ t ∪ u = s ∪ (t ∪ u) :=
  ext fun x => by simp only [mem_union, or_assoc]

theorem empty_union (s : SortedSet α) : ∅ ∪ s = s :=
  ext fun x => by simp only [mem_union, not_mem_empty, false_or]

end SortedSet

end Tabular.Ordered
