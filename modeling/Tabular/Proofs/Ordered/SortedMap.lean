import Tabular.Ordered.SortedMap

/-!
# What a sorted map holds

A map is read through `get?`, and everything else it can be asked follows from that: its
entries are the pairs that `get?` answers with, and its keys come in strictly increasing
order.

Maps are filled by going through a list. Replacing entries leaves the last element with
a key, keeping them leaves the first, and these are the two equations by which later
proofs know a filled map.
-/

namespace Tabular.Ordered

variable {κ β γ : Type} [Ord κ]

/-- Lists in strict order with the same elements are the same. -/
theorem eq_of_strictlySorted [Std.TransOrd κ] {xs ys : List κ} (hx : StrictlySorted xs)
    (hy : StrictlySorted ys) (h : ∀ x, x ∈ xs ↔ x ∈ ys) : xs = ys := by
  have hset : (⟨xs, hx⟩ : SortedSet κ) = ⟨ys, hy⟩ := SortedSet.ext h
  exact congrArg SortedSet.toList hset

theorem findEntry_eq_some_iff [Std.TransOrd κ] [Std.LawfulEqOrd κ] {es : List (κ × β)}
    (hs : KeysSorted es) {k : κ} {v : β} : findEntry k es = some v ↔ (k, v) ∈ es := by
  induction es with
  | nil => simp [findEntry]
  | cons e rest ih =>
      obtain ⟨k', v'⟩ := e
      obtain ⟨hhead, hrest⟩ := List.pairwise_cons.mp hs
      rw [findEntry]
      split
      · next heq =>
          have hk := Std.LawfulEqOrd.eq_of_compare heq
          subst hk
          constructor
          · intro h
            rw [Option.some.inj h]
            exact List.mem_cons_self
          · intro h
            rcases List.mem_cons.mp h with h | h
            · rw [(Prod.mk.inj h).2]
            · -- a second entry with this key would stand behind itself
              have hlt := hhead _ h
              simp [Std.ReflCmp.compare_self] at hlt
      · next hne =>
          rw [ih hrest, List.mem_cons]
          constructor
          · exact Or.inr
          · rintro (h | h)
            · rw [(Prod.mk.inj h).1] at hne
              exact absurd Std.ReflCmp.compare_self hne
            · exact h

/-- A key behind all others comes last. -/
theorem insertEntry_of_last [Std.TransOrd κ] {es : List (κ × β)} {k : κ} {v : β}
    (h : ∀ e ∈ es, compare e.1 k = .lt) : insertEntry k v es = es ++ [(k, v)] := by
  induction es with
  | nil => rfl
  | cons e rest ih =>
      obtain ⟨k', v'⟩ := e
      have hgt : compare k k' = .gt := Std.OrientedCmp.gt_of_lt (h (k', v') List.mem_cons_self)
      rw [insertEntry, hgt]
      exact congrArg ((k', v') :: ·) (ih fun e he => h e (List.mem_cons_of_mem _ he))

namespace SortedMap

theorem eq_of_toList {m n : SortedMap κ β} (h : m.toList = n.toList) : m = n := by
  cases m
  cases n
  cases h
  rfl

/-- The keys of a map stand in strictly increasing order. -/
theorem keys_sorted (m : SortedMap κ β) : m.keys.Pairwise fun a b => compare a b = .lt :=
  List.pairwise_map.mpr m.sorted

variable [Std.TransOrd κ] [Std.LawfulEqOrd κ]

theorem mem_toList_iff {m : SortedMap κ β} {k : κ} {v : β} :
    (k, v) ∈ m.toList ↔ m.get? k = some v :=
  (findEntry_eq_some_iff m.sorted).symm

theorem mem_keys_iff {m : SortedMap κ β} {k : κ} : k ∈ m.keys ↔ ∃ v, m.get? k = some v := by
  rw [keys, List.mem_map]
  constructor
  · rintro ⟨⟨k', v⟩, he, rfl⟩
    exact ⟨v, mem_toList_iff.mp he⟩
  · rintro ⟨v, hv⟩
    exact ⟨(k, v), mem_toList_iff.mpr hv, rfl⟩

theorem toList_foldl_insert (es : List (κ × β)) (m : SortedMap κ β)
    (h : KeysSorted (m.toList ++ es)) :
    (es.foldl (fun m e => m.insert e.1 e.2) m).toList = m.toList ++ es := by
  induction es generalizing m with
  | nil => rw [List.foldl_nil, List.append_nil]
  | cons e rest ih =>
      have hlast : (m.insert e.1 e.2).toList = m.toList ++ [e] :=
        insertEntry_of_last fun d hd =>
          (List.pairwise_append.mp h).2.2 d hd e List.mem_cons_self
      have hsplit : m.toList ++ e :: rest = (m.toList ++ [e]) ++ rest := by simp
      rw [List.foldl_cons, ih _ (by rwa [hlast, ← hsplit]), hlast, hsplit]

/-- A map is the one of its entries. -/
theorem ofList_toList (m : SortedMap κ β) : ofList m.toList = m :=
  eq_of_toList (toList_foldl_insert m.toList ∅ m.sorted)

variable [DecidableEq κ]

theorem get?_insert_ite (m : SortedMap κ β) (k j : κ) (v : β) :
    (m.insert k v).get? j = if j = k then some v else m.get? j := by
  rw [get?_insert]
  by_cases h : j = k
  · rw [if_pos h, if_pos (Std.LawfulEqOrd.compare_eq_iff_eq.mpr h)]
  · rw [if_neg fun heq => h (Std.LawfulEqOrd.eq_of_compare heq), if_neg h]

theorem get?_insertNew_ite (m : SortedMap κ β) (k j : κ) (v : β) :
    (m.insertNew k v).get? j = if j = k ∧ (m.get? j).isNone then some v else m.get? j := by
  rw [get?_insertNew]
  by_cases h : j = k
  · subst h
    simp [Std.ReflCmp.compare_self]
  · rw [if_neg fun hnew => h (Std.LawfulEqOrd.eq_of_compare hnew.1), if_neg fun hnew => h hnew.1]

/-- Of the elements that are inserted under one key, the last one stays. -/
theorem get?_foldl_insert (key : γ → κ) (value : γ → β) (xs : List γ) (m : SortedMap κ β)
    (k : κ) :
    (xs.foldl (fun m x => m.insert (key x) (value x)) m).get? k =
      ((xs.reverse.find? fun x => key x = k).map value).or (m.get? k) := by
  induction xs generalizing m with
  | nil => rfl
  | cons x rest ih =>
      rw [List.foldl_cons, ih, get?_insert_ite, List.reverse_cons, List.find?_append]
      by_cases hk : key x = k
      · subst hk
        cases rest.reverse.find? fun y => key y = key x with
        | none => simp
        | some y => simp
      · rw [if_neg fun h => hk h.symm]
        simp [hk]

/-- Of the elements that are put under one key only if it is free, the first one stays. -/
theorem get?_foldl_insertNew (key : γ → κ) (value : γ → β) (xs : List γ)
    (m : SortedMap κ β) (k : κ) :
    (xs.foldl (fun m x => m.insertNew (key x) (value x)) m).get? k =
      (m.get? k).or ((xs.find? fun x => key x = k).map value) := by
  induction xs generalizing m with
  | nil => simp
  | cons x rest ih =>
      rw [List.foldl_cons, ih, get?_insertNew_ite]
      by_cases hk : key x = k
      · subst hk
        cases h : m.get? (key x) with
        | none => simp
        | some v => simp
      · rw [if_neg fun h => hk h.1.symm]
        simp [hk]

end SortedMap

end Tabular.Ordered
