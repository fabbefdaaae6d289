import Mathlib.Data.List.Infix
import Tabular.Definition.Document
import Tabular.Definition.Typed
import Tabular.Proofs.Text.Blank

/-!
# The record behind a parameter's value

A named expression may be followed by a record in brackets, which says whether it is a
parameter. The record is meant to be the end of the text: what stands in front of it is the
expression, and a text that ends otherwise is an expression as a whole.

The text is cut at the last place where a record could start, and nothing asks whether a
record ends the text that starts there. So no text is lost exactly where the start of a record
occurs only in texts that a bracket closes; from any other text the rest is cut away.
-/

namespace Tabular.Text

/-! ## Texts in texts -/

theorem isSome_afterStart?_iff {start cs : List Char} :
    (afterStart? start cs).isSome = true ↔ start <+: cs := by
  rw [Option.isSome_iff_exists]
  simp only [afterStart?_eq_some_iff]
  exact exists_congr fun _ => eq_comm

theorem occursIn_eq_true_iff {needle cs : List Char} :
    occursIn needle cs = true ↔ needle <:+: cs := by
  rw [occursIn]
  induction cs with
  | nil =>
      rw [beforeFirst?, List.infix_nil]
      split
      · next h => simp [h]
      · next h => simp [h]
  | cons c cs ih =>
      rw [beforeFirst?, List.infix_cons_iff, ← ih, ← isSome_afterStart?_iff]
      split
      · next h => simp [h]
      · next h => simp [h]

/-- A text without a mark that a text with it starts with ends in front of the mark. -/
theorem startsWith_append_cons_iff {needle a b : List Char} {mark : Char} (h : mark ∉ needle) :
    needle <+: a ++ mark :: b ↔ needle <+: a := by
  constructor
  · intro hstart
    by_cases hlength : needle.length ≤ a.length
    · exact List.prefix_of_prefix_length_le hstart (List.prefix_append _ _) hlength
    · have hwhole : a ++ [mark] <+: a ++ mark :: b := ⟨b, by simp⟩
      have hmark : a ++ [mark] <+: needle :=
        List.prefix_of_prefix_length_le hwhole hstart (by simp; omega)
      exact absurd (hmark.subset (by simp)) h
  · exact fun hstart => hstart.trans (List.prefix_append _ _)

/-- A text without a mark that occurs in a text with it occurs on one side of the mark. -/
theorem occurs_append_cons_iff {needle a b : List Char} {mark : Char} (h : mark ∉ needle) :
    needle <:+: a ++ mark :: b ↔ needle <:+: a ∨ needle <:+: b := by
  induction a with
  | nil =>
      have hempty := startsWith_append_cons_iff (a := []) (b := b) h
      rw [List.nil_append, List.prefix_nil] at hempty
      rw [List.nil_append, List.infix_cons_iff, hempty, List.infix_nil]
  | cons c a ih =>
      rw [List.cons_append, List.infix_cons_iff, ih, ← List.cons_append,
        startsWith_append_cons_iff h, List.infix_cons_iff, or_assoc]

theorem isBlank_eq_false_of_isUpper {c : Char} (h : c.isUpper = true) : isBlank c = false := by
  have hrange : 'A'.val ≤ c.val ∧ c.val ≤ 'Z'.val := of_decide_eq_true h
  have hfirst : 65 ≤ c.toNat := UInt32.le_iff_toNat_le.mp hrange.1
  have hlast : c.toNat ≤ 90 := UInt32.le_iff_toNat_le.mp hrange.2
  exact isBlank_eq_false (by omega) (by omega)

theorem toLower_of_isBlank {c : Char} (h : isBlank c = true) : c.toLower = c := by
  refine dif_neg fun hrange => ?_
  rw [isBlank_eq_false_of_isUpper (decide_eq_true hrange)] at h
  cases h

theorem asciiLower_of_allBlank {w : List Char} (h : allBlank w = true) : asciiLower w = w := by
  have hkept : ∀ c ∈ w, c.toLower = id c := fun c hc =>
    toLower_of_isBlank (List.all_eq_true.mp h c hc)
  rw [asciiLower, List.map_congr_left hkept, List.map_id]

/-- A text that is no blank occurs in a closed one in front of its bracket. -/
theorem occurs_closed_iff {needle a w : List Char} (hmark : ']' ∉ needle)
    (hneedle : ¬ allBlank needle = true) (hw : allBlank w = true) :
    needle <:+: a ++ ']' :: w ↔ needle <:+: a := by
  have hblank : ¬ needle <:+: w := fun hoccurs =>
    hneedle (List.all_eq_true.mpr fun c hc => List.all_eq_true.mp hw c (hoccurs.subset hc))
  rw [occurs_append_cons_iff hmark, or_iff_left hblank]

end Tabular.Text

namespace Tabular.Definition

open Text

/-! ## The last place of a text -/

theorem splitAtLast?_eq_none_iff {needle cs : List Char} :
    splitAtLast? needle cs = none ↔ ¬ needle <:+: cs := by
  induction cs with
  | nil => simp [splitAtLast?]
  | cons c cs ih =>
      rw [splitAtLast?, List.infix_cons_iff, ← isSome_afterStart?_iff]
      cases hrest : splitAtLast? needle cs with
      | none => simp [ih.mp hrest]
      | some p =>
          have hoccurs : needle <:+: cs := by
            by_contra hnone
            rw [ih.mpr hnone] at hrest
            cases hrest
          simp [hoccurs]

theorem splitAtLast?_sound {needle cs before after : List Char}
    (h : splitAtLast? needle cs = some (before, after)) :
    cs = before ++ after ∧ needle <+: after := by
  induction cs generalizing before with
  | nil =>
      rw [splitAtLast?] at h
      split at h
      · next hnil =>
          cases h
          exact ⟨rfl, by rw [hnil]⟩
      · cases h
  | cons c cs ih =>
      rw [splitAtLast?] at h
      cases hrest : splitAtLast? needle cs with
      | none =>
          simp only [hrest] at h
          split at h
          · next hstart =>
              cases h
              exact ⟨rfl, isSome_afterStart?_iff.mp hstart⟩
          · cases h
      | some p =>
          simp only [hrest] at h
          cases h
          obtain ⟨hcs, hstart⟩ := ih hrest
          exact ⟨by rw [hcs, List.cons_append], hstart⟩

/-- A text is cut where the text that is looked for stands and occurs nowhere behind. -/
theorem splitAtLast?_append {needle after : List Char} (hne : needle ≠ [])
    (hstart : needle <+: after) (hlast : ¬ needle <:+: after.tail) (before : List Char) :
    splitAtLast? needle (before ++ after) = some (before, after) := by
  induction before with
  | nil =>
      cases after with
      | nil => exact absurd (List.prefix_nil.mp hstart) hne
      | cons c after =>
          -- nothing is found behind this place, so it is the one that counts
          rw [List.tail_cons, ← splitAtLast?_eq_none_iff] at hlast
          rw [List.nil_append, splitAtLast?, hlast]
          exact if_pos (isSome_afterStart?_iff.mpr hstart)
  | cons c before ih => rw [List.cons_append, splitAtLast?, ih]

/-! ## The value of a named expression -/

namespace Node

/-- The text that a named expression is given as its value. -/
def body (n : Node) : String := (n.properties.get? "expression").getD ""

/-- The setting by which a record says that its expression is a parameter. -/
def parameterSetting : List Char := "isparameterquery=true".toList

/-- A value ends in a record, blanks aside: some text, the start of a record in any case, what
the record holds, and its bracket. No record starts behind that one. -/
structure EndsInRecord (value before opening record : List Char) : Prop where
  start : asciiLower opening = recordStart
  ends : trimEnd value = before ++ (opening ++ (record ++ [']']))
  last : ¬ recordStart <:+: (asciiLower (opening ++ (record ++ [']']))).tail

/-- A record that ends the value is split off, and it alone says whether the expression is a
parameter. Without a bracket at its end the value is kept as it is. -/
structure KeepsBody (n : Node) : Prop where
  record : ∀ before opening record, EndsInRecord n.body.toList before opening record →
    n.namedExpression.expression = String.ofList (trimEnd before)
    ∧ (n.namedExpression.isParameter = true ↔
      parameterSetting <:+: (asciiLower record).filter (· != ' '))
  plain : (trimEnd n.body.toList).getLast? ≠ some ']' →
    n.namedExpression.expression = n.body ∧ n.namedExpression.isParameter = false

theorem expression_namedExpression (n : Node) :
    n.namedExpression.expression = (splitRecord n.body).1 := rfl

theorem isParameter_namedExpression (n : Node) :
    n.namedExpression.isParameter = (splitRecord n.body).2 := rfl

theorem asciiLower_closed {opening record w : List Char}
    (hstart : asciiLower opening = recordStart) (hw : allBlank w = true) :
    asciiLower (opening ++ (record ++ ']' :: w)) = recordStart ++ (asciiLower record ++ ']' :: w) :=
  calc asciiLower (opening ++ (record ++ ']' :: w))
      = asciiLower opening ++ (asciiLower record ++ ']' :: asciiLower w) := by simp [asciiLower]
    _ = recordStart ++ (asciiLower record ++ ']' :: w) := by
        rw [hstart, asciiLower_of_allBlank hw]

/-- A record that ends the value starts at the last place where one could. -/
theorem EndsInRecord.exists_split {value before opening record : List Char}
    (h : EndsInRecord value before opening record) :
    ∃ w, allBlank w = true ∧ value = before ++ (opening ++ (record ++ ']' :: w))
      ∧ splitAtLast? recordStart (asciiLower value) =
        some (asciiLower before, recordStart ++ (asciiLower record ++ ']' :: w)) := by
  obtain ⟨w, hw, hkept⟩ := exists_blanks value
  have hvalue : value = before ++ (opening ++ (record ++ ']' :: w)) :=
    hkept.trans (by simp [h.ends])
  have hlower : asciiLower value =
      asciiLower before ++ (recordStart ++ (asciiLower record ++ ']' :: w)) := by
    rw [hvalue, ← asciiLower_closed h.start hw]
    exact List.map_append
  -- blanks behind the bracket hold no start of a record
  have hlast : ¬ recordStart <:+: (recordStart ++ (asciiLower record ++ ']' :: w)).tail := by
    have hnot := h.last
    rw [asciiLower_closed h.start rfl] at hnot
    rw [List.tail_append_of_ne_nil (by decide), ← List.append_assoc,
      occurs_closed_iff (by decide) (by decide)] at hnot ⊢
    · exact hnot
    · exact hw
    · rfl
  refine ⟨w, hw, hvalue, ?_⟩
  rw [hlower]
  exact splitAtLast?_append (by decide) (List.prefix_append _ _) hlast _

/-- The setting counts where it stands in the record, and nowhere else. -/
theorem occursIn_parameterSetting {record w : List Char} (hw : allBlank w = true) :
    occursIn parameterSetting ((recordStart ++ (record ++ ']' :: w)).filter (· != ' ')) = true ↔
      parameterSetting <:+: record.filter (· != ' ') := by
  have hfilter : (recordStart ++ (record ++ ']' :: w)).filter (· != ' ') =
      "meta".toList ++ '[' :: (record.filter (· != ' ') ++ ']' :: w.filter (· != ' ')) := by
    have hstart : recordStart.filter (· != ' ') = "meta".toList ++ ['['] := by decide
    rw [List.filter_append, List.filter_append, hstart]
    simp
  have hblank : allBlank (w.filter (· != ' ')) = true :=
    List.all_eq_true.mpr fun c hc => List.all_eq_true.mp hw c (List.mem_of_mem_filter hc)
  rw [occursIn_eq_true_iff, hfilter, occurs_append_cons_iff (by decide),
    occurs_closed_iff (by decide) (by decide) hblank, or_iff_right (by decide)]

theorem length_splitRecord_lt {value : String} (h : recordStart <:+: asciiLower value.toList) :
    (splitRecord value).1.toList.length < value.toList.length := by
  rw [splitRecord]
  cases hsplit : splitAtLast? recordStart (asciiLower value.toList) with
  | none => exact absurd h (splitAtLast?_eq_none_iff.mp hsplit)
  | some p =>
      obtain ⟨hcut, hstart⟩ := splitAtLast?_sound hsplit
      have hlength : value.toList.length = p.1.length + p.2.length := by
        rw [← List.length_append, ← hcut, asciiLower, List.length_map]
      have hpos : 0 < p.2.length := Nat.lt_of_lt_of_le (by decide) hstart.length_le
      have htrim := length_trimEnd_le (value.toList.take p.1.length)
      simp only [String.toList_ofList, List.length_take] at htrim ⊢
      omega

/-- No text is lost exactly where a value in which a record could start ends with a bracket,
blanks aside. -/
theorem keepsBody_iff_closed (n : Node) :
    n.KeepsBody ↔ (recordStart <:+: asciiLower n.body.toList →
      (trimEnd n.body.toList).getLast? = some ']') := by
  constructor
  · intro h hoccurs
    by_contra hopen
    -- the value is cut, although nothing closes it
    have hcut := length_splitRecord_lt hoccurs
    rw [← expression_namedExpression, (h.plain hopen).1] at hcut
    exact Nat.lt_irrefl _ hcut
  · intro h
    constructor
    · intro before opening record hrecord
      obtain ⟨w, hw, hvalue, hsplit⟩ := hrecord.exists_split
      have hbefore : n.body.toList.take (asciiLower before).length = before := by
        rw [hvalue, asciiLower, List.length_map, List.take_left]
      rw [expression_namedExpression, isParameter_namedExpression, splitRecord]
      simp only [hsplit, hbefore, true_and]
      exact occursIn_parameterSetting hw
    · intro hopen
      have hnone := splitAtLast?_eq_none_iff.mpr (mt h hopen)
      rw [expression_namedExpression, isParameter_namedExpression, splitRecord]
      simp only [hnone, and_self]

/-- Behind the bracket of a record the rest of a formula is lost. -/
theorem not_keepsBody_sumBehindRecord :
    let children := (parse "expression E = 1 meta [A=1] + 2\n" "").root.children
    children.map (fun n => (n.body, n.namedExpression.expression)) = [("1 meta [A=1] + 2", "1")]
    ∧ ∀ n ∈ children, ¬ n.KeepsBody := by
  refine ⟨by decide +kernel, fun n hn hkept => ?_⟩
  have hopen : ∀ n ∈ (parse "expression E = 1 meta [A=1] + 2\n" "").root.children,
      (trimEnd n.body.toList).getLast? ≠ some ']' ∧ n.namedExpression.expression ≠ n.body := by
    decide +kernel
  exact (hopen n hn).2 (hkept.plain (hopen n hn).1).1

end Node

end Tabular.Definition
