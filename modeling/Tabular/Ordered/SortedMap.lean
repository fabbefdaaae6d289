import Tabular.Ordered.SortedSet

/-!
# Finite maps in key order

A map is the list of its entries with strictly increasing keys, so equal contents
mean equal maps. Inserting either replaces the value under a key (`insert`) or keeps
the one that was there first (`insertNew`); the two differ on nothing else.
-/

namespace Tabular.Ordered

variable {κ β : Type} [Ord κ]

/-- Puts an entry into a list with increasing keys, in the place of one with its key. -/
def insertEntry (k : κ) (v : β) : List (κ × β) → List (κ × β)
  | [] => [(k, v)]
  | (k', v') :: rest =>
      match compare k k' with
      | .lt => (k, v) :: (k', v') :: rest
      | .eq => (k, v) :: rest
      | .gt => (k', v') :: insertEntry k v rest

/-- Entries with strictly increasing keys. -/
def KeysSorted (es : List (κ × β)) : Prop :=
  es.Pairwise fun a b => compare a.1 b.1 = .lt

/-- The value under a key in a list of entries. -/
def findEntry (k : κ) : List (κ × β) → Option β
  | [] => none
  | (k', v') :: rest => if compare k k' = .eq then some v' else findEntry k rest

theorem key_mem_insertEntry {k : κ} {v : β} {es : List (κ × β)} {e : κ × β}
    (h : e ∈ insertEntry k v es) : e.1 = k ∨ e ∈ es := by
  induction es with
  | nil => simp [insertEntry] at h; simp [h]
  | cons d rest ih =>
      obtain ⟨k', v'⟩ := d
      simp only [insertEntry] at h
      split at h
      · rcases List.mem_cons.mp h with rfl | h <;> simp_all
      · rcases List.mem_cons.mp h with rfl | h <;> simp_all
      · rcases List.mem_cons.mp h with rfl | h
        · simp
        · rcases ih h with h | h <;> simp [h]

theorem keysSorted_insertEntry [Std.TransOrd κ] [Std.LawfulEqOrd κ] {k : κ} {v : β}
    {es : List (κ × β)} (h : KeysSorted es) : KeysSorted (insertEntry k v es) := by
  induction es with
  | nil => simp [insertEntry, KeysSorted]
  | cons d rest ih =>
      obtain ⟨k', v'⟩ := d
      obtain ⟨hd, hrest⟩ := List.pairwise_cons.mp h
      simp only [insertEntry]
      split
      · next hlt =>
          refine List.pairwise_cons.mpr ⟨fun a ha => ?_, h⟩
          rcases List.mem_cons.mp ha with rfl | ha
          · exact hlt
          · exact Std.TransCmp.lt_trans hlt (hd a ha)
      · next heq =>
          have hk := Std.LawfulEqOrd.eq_of_compare heq
          subst hk
          exact List.pairwise_cons.mpr ⟨hd, hrest⟩
      · next hgt =>
          refine List.pairwise_cons.mpr ⟨fun a ha => ?_, ih hrest⟩
          rcases key_mem_insertEntry ha with hk | ha
          · rw [hk]; exact Std.OrientedCmp.lt_of_gt hgt
          · exact hd a ha

theorem findEntry_insertEntry [Std.TransOrd κ] [Std.LawfulEqOrd κ] {k j : κ} {v : β}
    {es : List (κ × β)} :
    findEntry j (insertEntry k v es) =
      if compare j k = .eq then some v else findEntry j es := by
  induction es with
  | nil => rfl
  | cons d rest ih =>
      obtain ⟨k', v'⟩ := d
      simp only [insertEntry]
      split
      · rfl
      · next heq =>
          have hk := Std.LawfulEqOrd.eq_of_compare heq
          subst hk
          simp only [findEntry]
          split <;> rfl
      · next hgt =>
          simp only [findEntry, ih]
          split
          · next hjk' =>
              have hj := Std.LawfulEqOrd.eq_of_compare hjk'
              subst hj
              have hlt := Std.OrientedCmp.lt_of_gt hgt
              simp [hlt]
          · rfl

variable (κ β) in
/-- A finite map, held as the list of its entries in key order. -/
structure SortedMap where
  toList : List (κ × β)
  sorted : KeysSorted toList

namespace SortedMap

/-- The map with no entry. -/
def empty : SortedMap κ β := ⟨[], List.Pairwise.nil⟩

instance : EmptyCollection (SortedMap κ β) := ⟨empty⟩

instance : Inhabited (SortedMap κ β) := ⟨empty⟩

instance [DecidableEq κ] [DecidableEq β] : DecidableEq (SortedMap κ β) := fun m n =>
  match decEq m.toList n.toList with
  | isTrue h => isTrue (by cases m; cases n; simp_all)
  | isFalse h => isFalse (by rintro rfl; exact h rfl)

/-- The number of entries. -/
def size (m : SortedMap κ β) : Nat := m.toList.length

/-- The keys, in order. -/
def keys (m : SortedMap κ β) : List κ := m.toList.map (·.1)

/-- The value under a key. -/
def get? (m : SortedMap κ β) (k : κ) : Option β := findEntry k m.toList

/-- The entries that pass a test. -/
def filter (keep : κ × β → Bool) (m : SortedMap κ β) : SortedMap κ β :=
  ⟨m.toList.filter keep, m.sorted.filter _⟩

/-- Whether there is a value under a key. -/
def contains (m : SortedMap κ β) (k : κ) : Bool := (m.get? k).isSome

variable [Std.TransOrd κ] [Std.LawfulEqOrd κ]

/-- The map with a value under a key, in the place of any other. -/
def insert (m : SortedMap κ β) (k : κ) (v : β) : SortedMap κ β :=
  ⟨insertEntry k v m.toList, keysSorted_insertEntry m.sorted⟩

/-- The map with a value under a key, unless the key has one already. -/
def insertNew (m : SortedMap κ β) (k : κ) (v : β) : SortedMap κ β :=
  match m.get? k with
  | some _ => m
  | none => m.insert k v

/-- The map of a list of entries, of which a later one wins. -/
def ofList (es : List (κ × β)) : SortedMap κ β := es.foldl (fun m e => m.insert e.1 e.2) ∅

omit [Std.TransOrd κ] [Std.LawfulEqOrd κ] in
@[simp] theorem get?_empty (k : κ) : (∅ : SortedMap κ β).get? k = none := rfl

theorem get?_insert {m : SortedMap κ β} {k j : κ} {v : β} :
    (m.insert k v).get? j = if compare j k = .eq then some v else m.get? j :=
  findEntry_insertEntry

@[simp] theorem get?_insert_self {m : SortedMap κ β} {k : κ} {v : β} :
    (m.insert k v).get? k = some v := by simp [get?_insert]

theorem get?_insertNew {m : SortedMap κ β} {k j : κ} {v : β} :
    (m.insertNew k v).get? j =
      if compare j k = .eq ∧ (m.get? k).isNone then some v else m.get? j := by
  unfold insertNew
  cases h : m.get? k <;> by_cases hj : compare j k = .eq <;> simp [get?_insert, hj]

end SortedMap

end Tabular.Ordered
