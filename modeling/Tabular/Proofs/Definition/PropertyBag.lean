import Mathlib.Data.List.Induction
import Mathlib.Data.List.Nodup
import Tabular.Definition.PropertyBag

/-!
# Taking one property leaves the others

The entry of a key is one whose key differs from it in ASCII case only. So what is taken
out of a bag under one key is never what is found under a key that is another word, and
properties that are taken one after the other can all be looked up in the whole bag.

Several spellings of a key may stand in a bag, but none of them twice. Where no spelling does,
every entry is found under its own key, and taking a key away takes away what is found.
-/

namespace Tabular.Definition.PropertyBag

open Text

theorem sameWord_iff {a b : String} :
    sameWord a b = true ↔ asciiLower a.toList = asciiLower b.toList := beq_iff_eq

theorem sameWord_of_isEntry {b : PropertyBag} {key k : String} (h : b.isEntry key k = true) :
    sameWord k key = true := by
  rw [isEntry] at h
  split at h
  · rw [beq_iff_eq.mp h, sameWord_self]
  · exact h

/-- An entry that a test does not accept may be taken away. -/
theorem find?_eraseFirst {test : String × String → Bool} {drop : String → Bool}
    (h : ∀ e, drop e.1 = true → test e = false) (es : List (String × String)) :
    (eraseFirst drop es).find? test = es.find? test := by
  induction es with
  | nil => rfl
  | cons e rest ih =>
      obtain ⟨k, v⟩ := e
      rw [eraseFirst]
      split
      · next hdrop => rw [List.find?_cons, h (k, v) hdrop]
      · rw [List.find?_cons, List.find?_cons, ih]

/-- Under a key that is another word, a bag holds after a property was taken what it held
before. -/
theorem find?_erase {b : PropertyBag} {key taken : String} (h : sameWord key taken = false) :
    (b.erase taken).find? key = b.find? key := by
  have hother : ∀ {test : String → Bool}, (∀ k, test k = true → sameWord k key = true) →
      ∀ e : String × String, b.isEntry taken e.1 = true → test e.1 = false := by
    intro test htest e he
    rw [← Bool.not_eq_true]
    intro hfound
    have hkey := sameWord_iff.mp (htest e.1 hfound)
    have htaken := sameWord_iff.mp (sameWord_of_isEntry he)
    rw [← Bool.not_eq_true] at h
    exact h (sameWord_iff.mpr (hkey.symm.trans htaken))
  have hexactly : (b.erase taken).hasExactly key = b.hasExactly key := by
    have hsame : ∀ k, (k == key) = true → sameWord k key = true := by
      intro k hk
      rw [beq_iff_eq.mp hk, sameWord_self]
    have hfind := find?_eraseFirst (hother hsame) b.entries
    rw [hasExactly, hasExactly, ← List.isSome_find?, ← List.isSome_find?]
    exact congrArg Option.isSome hfind
  have hentry : (b.erase taken).isEntry key = b.isEntry key := by
    rw [isEntry, isEntry, hexactly]
  rw [find?, find?, hentry]
  exact find?_eraseFirst (hother fun k => sameWord_of_isEntry) b.entries

theorem get?_erase {b : PropertyBag} {key taken : String} (h : sameWord key taken = false) :
    (b.erase taken).get? key = b.get? key := by
  rw [get?, get?, find?_erase h]

/-- A flag stays what it was when a property of another word is taken. -/
theorem flag?_erase {b : PropertyBag} {key taken : String} (h : sameWord key taken = false) :
    (b.erase taken).flag? key = b.flag? key := by
  rw [flag?, flag?, get?_erase h]

/-! ## Keys that stand once -/

/-- Whether no key stands in a bag twice in one spelling. -/
def KeysApart (b : PropertyBag) : Prop := (b.entries.map (·.1)).Nodup

instance (b : PropertyBag) : Decidable b.KeysApart :=
  inferInstanceAs (Decidable (List.Nodup _))

theorem map_fst_setEntry (key value : String) (es : List (String × String)) :
    (setEntry key value es).map (·.1) =
      if key ∈ es.map (·.1) then es.map (·.1) else es.map (·.1) ++ [key] := by
  induction es with
  | nil => rfl
  | cons e rest ih =>
      obtain ⟨k, v⟩ := e
      rw [setEntry]
      by_cases hsame : k = key
      · simp [hsame]
      · rw [if_neg hsame, List.map_cons, ih]
        by_cases hmem : key ∈ rest.map (·.1)
        · rw [if_pos hmem, List.map_cons, if_pos (List.mem_cons_of_mem k hmem)]
        · have hnot : key ∉ k :: rest.map (·.1) :=
            List.not_mem_cons_of_ne_of_not_mem (Ne.symm hsame) hmem
          rw [if_neg hmem, List.map_cons, if_neg hnot, List.cons_append]

theorem keysApart_insert {b : PropertyBag} (h : b.KeysApart) (key value : String) :
    (b.insert key value).KeysApart := by
  rw [KeysApart, insert, map_fst_setEntry]
  split
  · exact h
  · next hnew =>
      rw [← List.concat_eq_append]
      exact h.concat hnew

/-- In a bag that properties were given to, no key stands twice in one spelling. -/
theorem keysApart_ofList (es : List (String × String)) : (ofList es).KeysApart := by
  induction es using List.reverseRecOn with
  | nil => exact List.nodup_nil
  | append_singleton es e ih =>
      rw [ofList, List.foldl_append]
      exact keysApart_insert ih e.1 e.2

theorem eraseFirst_eq_diff (test : String → Bool) (es : List (String × String)) :
    eraseFirst test es = es.diff (es.find? fun e => test e.1).toList := by
  induction es with
  | nil => rfl
  | cons e rest ih =>
      obtain ⟨k, v⟩ := e
      by_cases htest : test k = true
      · simp [eraseFirst, htest]
      · simp only [eraseFirst, htest, Bool.false_eq_true, if_false, ih, List.find?_cons]
        cases hfind : rest.find? (fun e => test e.1) with
        | none => rfl
        | some e =>
            -- what is found passes the test, so it is another entry
            have hne : (k, v) ≠ e := by
              intro heq
              have hfound := List.find?_some hfind
              rw [← heq] at hfound
              exact htest hfound
            simp [hne]

theorem entries_erase (b : PropertyBag) (key : String) :
    (b.erase key).entries = b.entries.diff (b.find? key).toList :=
  eraseFirst_eq_diff (b.isEntry key) b.entries

/-- Where keys are apart, an entry is the first one with its key. -/
theorem find?_fst_of_mem {es : List (String × String)} (h : (es.map (·.1)).Nodup)
    {e : String × String} (he : e ∈ es) : es.find? (·.1 == e.1) = some e := by
  induction es with
  | nil => cases he
  | cons d rest ih =>
      rw [List.map_cons, List.nodup_cons] at h
      rcases List.mem_cons.mp he with rfl | hrest
      · simp
      · have hne : (d.1 == e.1) = false := by
          refine beq_eq_false_iff_ne.mpr fun heq => ?_
          rw [heq] at h
          exact h.1 (List.mem_map_of_mem hrest)
        rw [List.find?_cons, hne]
        exact ih h.2 hrest

theorem find?_of_mem {b : PropertyBag} (h : b.KeysApart) {e : String × String}
    (he : e ∈ b.entries) : b.find? e.1 = some e := by
  have hexactly : b.hasExactly e.1 = true :=
    List.any_eq_true.mpr ⟨e, he, beq_self_eq_true _⟩
  rw [find?]
  simp only [isEntry, hexactly, if_true]
  exact find?_fst_of_mem h he

/-! ## A property that is given twice -/

/-- The value of a key in exactly this spelling. -/
def exactly? (b : PropertyBag) (key : String) : Option String :=
  (b.entries.find? (·.1 == key)).map (·.2)

theorem isSome_exactly? (b : PropertyBag) (key : String) :
    (b.exactly? key).isSome = b.hasExactly key := by
  rw [exactly?, Option.isSome_map, List.isSome_find?, hasExactly]

theorem get?_eq_exactly? {b : PropertyBag} {key : String} (h : b.hasExactly key = true) :
    b.get? key = b.exactly? key := by
  rw [get?, find?, exactly?]
  simp only [isEntry, h, if_true]

theorem exactly?_insert (b : PropertyBag) (k v key : String) :
    (b.insert k v).exactly? key = if k = key then some v else b.exactly? key := by
  obtain ⟨es⟩ := b
  rw [exactly?, exactly?, insert]
  induction es with
  | nil =>
      rw [setEntry, List.find?_cons]
      by_cases hkey : k = key
      · simp [hkey]
      · simp [hkey, beq_eq_false_iff_ne.mpr hkey]
  | cons e rest ih =>
      obtain ⟨k', v'⟩ := e
      rw [setEntry]
      by_cases hsame : k' = k
      · rw [if_pos hsame, List.find?_cons, List.find?_cons]
        subst hsame
        by_cases hkey : k' = key
        · simp [hkey]
        · simp [hkey, beq_eq_false_iff_ne.mpr hkey]
      · rw [if_neg hsame, List.find?_cons, List.find?_cons]
        by_cases hkey : k' = key
        · subst hkey
          simp [Ne.symm hsame]
        · simp only [beq_eq_false_iff_ne.mpr hkey]
          exact ih

/-- Of the values that are given to a key, the last one counts. -/
theorem exactly?_foldl_insert (es : List (String × String)) (b : PropertyBag) (key : String) :
    (es.foldl (fun b e => b.insert e.1 e.2) b).exactly? key =
      ((ofList es).exactly? key).or (b.exactly? key) := by
  induction es using List.reverseRecOn with
  | nil => rfl
  | append_singleton es e ih =>
      rw [ofList, List.foldl_append, List.foldl_append]
      simp only [List.foldl_cons, List.foldl_nil, exactly?_insert]
      by_cases hkey : e.1 = key
      · rw [if_pos hkey, if_pos hkey]
        rfl
      · rw [if_neg hkey, if_neg hkey, ih]
        rfl

theorem exactly?_ofList_append (es es' : List (String × String)) (key : String) :
    (ofList (es ++ es')).exactly? key =
      ((ofList es').exactly? key).or ((ofList es).exactly? key) := by
  rw [ofList, List.foldl_append, exactly?_foldl_insert]
  rfl

theorem exactly?_ofList_of_forall_ne {es : List (String × String)} {key : String}
    (h : ∀ e ∈ es, e.1 ≠ key) : (ofList es).exactly? key = none := by
  induction es using List.reverseRecOn with
  | nil => rfl
  | append_singleton es e ih =>
      rw [ofList, List.foldl_append]
      simp only [List.foldl_cons, List.foldl_nil, exactly?_insert]
      rw [if_neg (h e (by simp))]
      exact ih fun e he => h e (List.mem_append_left _ he)

theorem exactly?_ofList_singleton (key value : String) :
    (ofList [(key, value)]).exactly? key = some value := by
  rw [ofList, List.foldl_cons, List.foldl_nil, exactly?_insert, if_pos rfl]

theorem get?_of_exactly? {b : PropertyBag} {key value : String}
    (h : b.exactly? key = some value) : b.get? key = some value := by
  rw [get?_eq_exactly? (by rw [← isSome_exactly?, h, Option.isSome_some]), h]

/-- What is given last is there. -/
theorem get?_ofList_concat (es : List (String × String)) (key value : String) :
    (ofList (es ++ [(key, value)])).get? key = some value := by
  refine get?_of_exactly? ?_
  rw [exactly?_ofList_append, exactly?_ofList_singleton, Option.some_or]

/-- A bag in which a property is given between others that another one lacks. -/
def Given (key value : String) (a b : PropertyBag) : Prop :=
  ∃ first later, (∀ e ∈ first, e.1 ≠ key)
    ∧ a = ofList (first ++ later) ∧ b = ofList (first ++ (key, value) :: later)

/-- The value is that of the property, if no later one gives the key another. -/
theorem Given.get?_eq {key value : String} {a b : PropertyBag} (h : Given key value a b) :
    b.get? key = if a.hasExactly key then a.get? key else some value := by
  obtain ⟨first, later, hfirst, ha, hb⟩ := h
  have hnone := exactly?_ofList_of_forall_ne hfirst
  have hother : a.exactly? key = (ofList later).exactly? key := by
    rw [ha, exactly?_ofList_append, hnone, Option.or_none]
  have hvalue : b.exactly? key = some ((a.exactly? key).getD value) := by
    rw [hb, List.append_cons, exactly?_ofList_append, exactly?_ofList_append,
      exactly?_ofList_singleton, hother]
    cases (ofList later).exactly? key with
    | none => rfl
    | some other => rfl
  rw [get?_of_exactly? hvalue]
  split
  · next hkey =>
      rw [get?_eq_exactly? hkey]
      rw [← isSome_exactly?] at hkey
      obtain ⟨other, hother⟩ := Option.isSome_iff_exists.mp hkey
      rw [hother, Option.getD_some]
  · next hkey =>
      rw [← isSome_exactly?, Option.not_isSome_iff_eq_none] at hkey
      rw [hkey, Option.getD_none]

theorem filter_setEntry (k v key : String) (es : List (String × String)) :
    (setEntry k v es).filter (·.1 != key) =
      if k = key then es.filter (·.1 != key) else setEntry k v (es.filter (·.1 != key)) := by
  induction es with
  | nil =>
      by_cases hkey : k = key
      · simp [setEntry, hkey]
      · simp [setEntry, hkey]
  | cons e rest ih =>
      obtain ⟨k', v'⟩ := e
      rw [setEntry]
      by_cases hsame : k' = k
      · subst hsame
        by_cases hkey : k' = key
        · simp [hkey]
        · simp [setEntry, hkey]
      · rw [if_neg hsame, List.filter_cons, ih, List.filter_cons]
        by_cases hkey : k = key
        · simp [hkey]
        · by_cases hother : k' = key
          · simp [hkey, hother]
          · simp [setEntry, hkey, hother, hsame]

/-- Without one key, a bag is what the properties without it make. -/
theorem filter_entries_ofList (es : List (String × String)) (key : String) :
    (ofList es).entries.filter (·.1 != key) = (ofList (es.filter (·.1 != key))).entries := by
  induction es using List.reverseRecOn with
  | nil => rfl
  | append_singleton es e ih =>
      rw [ofList, List.foldl_append, List.filter_append, ofList, List.foldl_append]
      simp only [List.foldl_cons, List.foldl_nil]
      rw [insert, filter_setEntry]
      by_cases hkey : e.1 = key
      · rw [if_pos hkey, List.filter_cons_of_neg (by simp [hkey]), List.filter_nil]
        exact ih
      · rw [if_neg hkey, List.filter_cons_of_pos (by simp [hkey]), List.filter_nil]
        exact congrArg (setEntry e.1 e.2) ih

/-- The other properties are the same, in the same order. -/
theorem Given.filter_entries {key value : String} {a b : PropertyBag} (h : Given key value a b) :
    b.entries.filter (·.1 != key) = a.entries.filter (·.1 != key) := by
  obtain ⟨first, later, -, ha, hb⟩ := h
  rw [ha, hb, filter_entries_ofList, filter_entries_ofList, List.filter_append,
    List.filter_append, List.filter_cons_of_neg (by simp)]

end Tabular.Definition.PropertyBag
