import Mathlib.Data.List.Basic
import Mathlib.Data.List.TakeWhile
import Tabular.Proofs.Text.Lowercase

/-!
# Keys that can be taken apart

A key joins a table and a name by a bracket, and a lowercase key joins their lowercase
forms by a bar. Different objects can have one key when these marks occur in names too.
A key of a plain object, with neither mark in its table or its name, is the key of no
other one; for the lowercase key it is enough that there is no bar.

A key spells the object that it has when it is taken apart at its first bracket. Keys with one
lowercase are taken apart in the same place, and spell one object up to case.
-/

namespace Tabular

open Text

/-- An object with a table and a name that hold no opening bracket and no bar. -/
structure ObjectRef.Plain (r : ObjectRef) : Prop where
  table_ne : r.table ≠ ""
  name_ne : r.name ≠ ""
  table_bracket : '[' ∉ r.table.toList
  name_bracket : '[' ∉ r.name.toList
  table_bar : '|' ∉ r.table.toList
  name_bar : '|' ∉ r.name.toList

/-- An object with a table and a name that hold no bar. -/
structure ObjectRef.Unbarred (r : ObjectRef) : Prop where
  table_ne : r.table ≠ ""
  name_ne : r.name ≠ ""
  table_bar : '|' ∉ r.table.toList
  name_bar : '|' ∉ r.name.toList

theorem ObjectRef.Plain.unbarred {r : ObjectRef} (h : r.Plain) : r.Unbarred :=
  ⟨h.table_ne, h.name_ne, h.table_bar, h.name_bar⟩

namespace ObjectRef

instance (r : ObjectRef) : Decidable r.Plain :=
  decidable_of_iff (r.table ≠ "" ∧ r.name ≠ "" ∧ '[' ∉ r.table.toList ∧ '[' ∉ r.name.toList
      ∧ '|' ∉ r.table.toList ∧ '|' ∉ r.name.toList)
    ⟨fun ⟨ht, hn, htb, hnb, htr, hnr⟩ => ⟨ht, hn, htb, hnb, htr, hnr⟩,
      fun ⟨ht, hn, htb, hnb, htr, hnr⟩ => ⟨ht, hn, htb, hnb, htr, hnr⟩⟩

/-- An object without brackets is known by its key. -/
theorem eq_of_key_eq_of_notMem {r s : ObjectRef} (htable : '[' ∉ s.table.toList)
    (hname : '[' ∉ s.name.toList) (h : r.key = s.key) : r = s := by
  have hrest : '[' ∉ s.name.toList ++ [']'] := by
    rw [List.mem_append, not_or]
    exact ⟨hname, by decide⟩
  have hchars := congrArg String.toList h.symm
  simp only [key, objectKey, String.toList_append, List.append_assoc] at hchars
  obtain ⟨hsame, -, hclosed⟩ := (List.append_cons_inj_of_notMem htable hrest).mp hchars
  have hsame' : s.name.toList = r.name.toList := List.append_cancel_right hclosed
  exact congrArg₂ ObjectRef.mk (String.toList_inj.mp hsame).symm
    (String.toList_inj.mp hsame').symm

/-- A plain object is known by its key. -/
theorem eq_of_key_eq {r s : ObjectRef} (hs : s.Plain) (h : r.key = s.key) : r = s :=
  eq_of_key_eq_of_notMem hs.table_bracket hs.name_bracket h

theorem toList_key (r : ObjectRef) :
    r.key.toList = (r.table.toList ++ '[' :: r.name.toList) ++ [']'] := by
  simp [key, objectKey]

/-- A key spells the one reference with this key that has no bracket in its table. -/
theorem ofKey?_eq_some_iff {k : Key} {r : ObjectRef} :
    ofKey? k = some r ↔ k = r.key ∧ '[' ∉ r.table.toList := by
  constructor
  · intro h
    rw [ofKey?] at h
    split at h
    · next body hbody =>
        simp only at h
        split at h
        · next name hname =>
            rw [← Option.some.inj h, ← String.toList_inj, toList_key, String.toList_ofList,
              String.toList_ofList, ← hname, List.takeWhile_append_dropWhile,
              ← List.reverse_cons, ← hbody, List.reverse_reverse]
            refine ⟨rfl, fun hmem => ?_⟩
            exact absurd (List.mem_takeWhile_imp hmem) (by decide)
        · cases h
    · cases h
  · rintro ⟨rfl, htable⟩
    have hfront : ∀ c ∈ r.table.toList, (c != '[') = true := by
      intro c hc
      rw [bne_iff_ne]
      rintro rfl
      exact htable hc
    rw [ofKey?, toList_key, List.reverse_append, List.reverse_singleton, List.singleton_append]
    simp only [List.reverse_reverse]
    rw [List.dropWhile_append_of_pos hfront, List.takeWhile_append_of_pos hfront]
    simp

/-- The reference that the key of an object spells. -/
def spelled (r : ObjectRef) : ObjectRef := (ofKey? r.key).getD r

theorem ofKey?_key (r : ObjectRef) : ofKey? r.key = some r.spelled := by
  have hmem : '[' ∈ r.table.toList ++ '[' :: r.name.toList := by simp
  obtain ⟨table, name, hsplit, hfirst⟩ := List.eq_append_cons_of_mem hmem
  have hkey : r.key = (⟨String.ofList table, String.ofList name⟩ : ObjectRef).key := by
    rw [← String.toList_inj, toList_key, toList_key, hsplit, String.toList_ofList,
      String.toList_ofList]
  have hsome := ofKey?_eq_some_iff.mpr ⟨hkey, by rwa [String.toList_ofList]⟩
  rw [spelled, hsome]
  rfl

/-- The key of an object whose table has no bracket spells the object. -/
theorem spelled_eq_self {r : ObjectRef} (h : '[' ∉ r.table.toList) : r.spelled = r := by
  rw [spelled, ofKey?_eq_some_iff.mpr ⟨rfl, h⟩]
  rfl

theorem toList_fold_key (r : ObjectRef) :
    (fold r.key).toList = (fold r.table).toList ++ '[' :: ((fold r.name).toList ++ [']']) := by
  rw [toList_fold, toList_key, List.append_assoc, List.cons_append,
    isDivider_bracket.lowerAfter_append, isDivider_closing.lowerAfter_append, toList_fold,
    toList_fold]
  rfl

/-- A text that is a key up to case is the key of an object that is the other one up to case. -/
theorem fold_eq_fold_key_iff {k : Key} {r : ObjectRef} :
    fold k = fold r.key ↔
      ∃ s : ObjectRef, k = s.key ∧ fold s.table = fold r.table ∧ fold s.name = fold r.name := by
  constructor
  · intro h
    have hchars := congrArg String.toList h
    rw [toList_fold_key, toList_fold] at hchars
    obtain ⟨table, rest, hk, htable, hrest⟩ :=
      isDivider_bracket.lowerAfter_eq_append_iff.mp hchars
    obtain ⟨name, behind, rfl, hname, hbehind⟩ :=
      isDivider_closing.lowerAfter_eq_append_iff.mp hrest
    obtain rfl := lowerAfter_eq_nil_iff.mp hbehind
    refine ⟨⟨String.ofList table, String.ofList name⟩, ?_, ?_, ?_⟩
    · rw [← String.toList_inj, toList_key, hk, String.toList_ofList, String.toList_ofList,
        List.append_assoc, List.cons_append]
    · rw [← String.toList_inj, toList_fold, String.toList_ofList, htable]
    · rw [← String.toList_inj, toList_fold, String.toList_ofList, hname]
  · rintro ⟨s, rfl, htable, hname⟩
    rw [← String.toList_inj, toList_fold_key, toList_fold_key, htable, hname]

/-- Each spelling of a key spells what the key spells, up to case. -/
theorem exists_ofKey?_of_fold_eq {k : Key} {r : ObjectRef} (h : fold k = fold r.key) :
    ∃ s, ofKey? k = some s ∧ s.normalized = r.spelled.normalized := by
  obtain ⟨hkey, htable⟩ := ofKey?_eq_some_iff.mp (ofKey?_key r)
  rw [hkey] at h
  obtain ⟨s, rfl, hstable, hsname⟩ := fold_eq_fold_key_iff.mp h
  rw [← isMark_bracket.mem_fold_iff, ← hstable, isMark_bracket.mem_fold_iff] at htable
  refine ⟨s, ofKey?_eq_some_iff.mpr ⟨rfl, htable⟩, ?_⟩
  rw [normalized, normalized, normalizedKey, normalizedKey, hstable, hsname]

theorem normalized_spelled_of_fold_eq {r s : ObjectRef} (h : fold r.key = fold s.key) :
    r.spelled.normalized = s.spelled.normalized := by
  obtain ⟨r', hr', hsame⟩ := exists_ofKey?_of_fold_eq h
  rwa [Option.some.inj ((ofKey?_key r).symm.trans hr')]

/-- An object without bars is known by its lowercase key, up to case. -/
theorem Unbarred.fold_eq {r s : ObjectRef} (hs : s.Unbarred)
    (h : r.normalized = s.normalized) :
    fold r.table = fold s.table ∧ fold r.name = fold s.name := by
  have hchars := congrArg String.toList h.symm
  simp only [normalized, normalizedKey, String.toList_append, List.append_assoc] at hchars
  obtain ⟨htable, -, hname⟩ := (List.append_cons_inj_of_notMem
    (isMark_bar.mem_fold_iff.not.mpr hs.table_bar)
    (isMark_bar.mem_fold_iff.not.mpr hs.name_bar)).mp hchars
  exact ⟨(String.toList_inj.mp htable).symm, (String.toList_inj.mp hname).symm⟩

/-- The first mark in a text is where two texts without it end. -/
theorem append_cons_inj_left {x y z w : List Char} {mark : Char} (hx : mark ∉ x)
    (hy : mark ∉ y) (h : x ++ mark :: z = y ++ mark :: w) : x = y ∧ z = w := by
  rcases List.append_eq_append_iff.mp h with ⟨c, rfl, hc⟩ | ⟨c, rfl, hc⟩
  all_goals
    cases c with
    | nil => simpa [eq_comm] using hc
    | cons d c =>
        have hd : d = mark := by simpa [eq_comm] using congrArg List.head? hc
        simp [hd] at hx hy

/-- Objects with one lowercase key are one object up to case, if their tables have no bar. -/
theorem fold_eq_of_notMem_table {r s : ObjectRef} (hr : '|' ∉ r.table.toList)
    (hs : '|' ∉ s.table.toList) (h : r.normalized = s.normalized) :
    fold r.table = fold s.table ∧ fold r.name = fold s.name := by
  have hchars := congrArg String.toList h
  simp only [normalized, normalizedKey, String.toList_append, List.append_assoc] at hchars
  obtain ⟨htable, hname⟩ := append_cons_inj_left (isMark_bar.mem_fold_iff.not.mpr hr)
    (isMark_bar.mem_fold_iff.not.mpr hs) hchars
  exact ⟨String.toList_inj.mp htable, String.toList_inj.mp hname⟩

/-- A plain object is known by its lowercase key, up to case. -/
theorem fold_eq_of_normalized_eq {r s : ObjectRef} (hs : s.Plain)
    (h : r.normalized = s.normalized) :
    fold r.table = fold s.table ∧ fold r.name = fold s.name := hs.unbarred.fold_eq h

theorem isNamed_iff {r : ObjectRef} {table name : String} :
    r.isNamed table name = true ↔ fold r.table = fold table ∧ fold r.name = fold name := by
  rw [isNamed, Bool.and_eq_true, beq_iff_eq, beq_iff_eq]

theorem normalized_eq_of_isNamed {r s : ObjectRef} (h : r.isNamed s.table s.name = true) :
    r.normalized = s.normalized := by
  obtain ⟨htable, hname⟩ := isNamed_iff.mp h
  rw [normalized, normalized, normalizedKey, normalizedKey, htable, hname]

/-- An object without bars has the lowercase key of a table and a name only if these are
its own. -/
theorem Unbarred.normalized_eq_iff {r : ObjectRef} (h : r.Unbarred) {table name : String} :
    r.normalized = normalizedKey table name ↔ r.isNamed table name = true := by
  rw [isNamed_iff]
  constructor
  · intro hkey
    obtain ⟨htable, hname⟩ := h.fold_eq (r := ⟨table, name⟩) hkey.symm
    exact ⟨htable.symm, hname.symm⟩
  · rintro ⟨htable, hname⟩
    rw [normalized, normalizedKey, normalizedKey, htable, hname]

/-- An object with a bar shares its lowercase key with a table of another name. -/
theorem exists_normalizedKey_eq {r : ObjectRef}
    (h : '|' ∈ r.table.toList ∨ '|' ∈ r.name.toList) :
    ∃ table name, normalizedKey table name = r.normalized ∧ fold table ≠ fold r.table := by
  have hlonger : ∀ s t : String, s ++ "|" ++ t ≠ s := by
    intro s t heq
    have hlength := congrArg (·.toList.length) heq
    simp at hlength
  have hsplit : ∀ s : String, '|' ∈ s.toList → ∃ x y, s = x ++ "|" ++ y := by
    intro s hs
    obtain ⟨x, y, hxy⟩ := List.append_of_mem hs
    refine ⟨String.ofList x, String.ofList y, ?_⟩
    rw [← String.toList_inj, hxy]
    simp
  rcases h with htable | hname
  · obtain ⟨x, y, hxy⟩ := hsplit r.table htable
    refine ⟨x, y ++ "|" ++ r.name, ?_, ?_⟩
    · rw [normalized, normalizedKey, normalizedKey, hxy, fold_bar, fold_bar]
      simp only [String.append_assoc]
    · rw [hxy, fold_bar]
      exact (hlonger _ _).symm
  · obtain ⟨x, y, hxy⟩ := hsplit r.name hname
    refine ⟨r.table ++ "|" ++ x, y, ?_, ?_⟩
    · rw [normalized, normalizedKey, normalizedKey, hxy, fold_bar, fold_bar]
      simp only [String.append_assoc]
    · rw [fold_bar]
      exact hlonger _ _

end ObjectRef

end Tabular
