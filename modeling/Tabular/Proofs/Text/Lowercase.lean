import Tabular.Object

/-!
# Marks are the lowercase of themselves alone

A lowercase key puts a bar between a table and a name, and a key puts a bracket between
them. Either can be taken apart as long as neither part has such a mark of its own, and
lowercase adds none: no run of the table of letters takes a letter to the code of a mark.

Nor does the lowercase of a letter look past a bar or a bracket, which neither have a case
nor are stepped over. A text with such a divider in it therefore has the lowercase of its two
parts, and where the lowercase can be taken apart, so can every text that has it.
-/

namespace Tabular.Text

theorem lowerCode_ne {n k : Nat} {runs : List (Nat × Nat × Nat × Int)} (hk : 0 < k)
    (hn : n ≠ k) (h : ∀ run ∈ runs, k - run.2.2.2 < run.1 ∨ run.2.1 < k - run.2.2.2) :
    lowerCode n runs ≠ k := by
  induction runs with
  | nil => exact hn
  | cons run rest ih =>
      obtain ⟨first, last, step, offset⟩ := run
      have hrun := h _ List.mem_cons_self
      rw [lowerCode]
      split
      · exact hn
      · split
        · simp only at hrun
          omega
        · exact ih fun run hmem => h run (List.mem_cons_of_mem _ hmem)

theorem toNat_eq_of_ofNat_eq {n : Nat} {c : Char} (hc : 0 < c.toNat)
    (h : Char.ofNat n = c) : c.toNat = n := by
  by_cases hvalid : n.isValidChar
  · have hcode : Char.ofNat n = Char.ofNatAux n hvalid := dif_pos hvalid
    rw [← h, hcode]
    rfl
  · have hzero : Char.ofNat n = '\x00' := dif_neg hvalid
    rw [← h, hzero] at hc
    exact absurd hc (by decide)

theorem toList_fold (s : String) : (fold s).toList = lowerAfter [] s.toList := by
  rw [fold, String.toList_ofList, lowerChars]

/-- A mark: a character that is the lowercase of no other one, by the table of letters as
by the rule for ASCII. -/
structure IsMark (m : Char) : Prop where
  ascii : m.toNat < 128
  alone : ∀ n : Fin 128, (Char.ofNat n).toLower = m ↔ Char.ofNat n = m
  unreached : 0 < m.toNat ∧ ∀ run ∈ lowercaseRuns,
    m.toNat - run.2.2.2 < run.1 ∨ run.2.1 < m.toNat - run.2.2.2

theorem isMark_bar : IsMark '|' where
  ascii := by decide
  alone := by decide
  unreached := by decide +kernel

theorem isMark_bracket : IsMark '[' where
  ascii := by decide
  alone := by decide
  unreached := by decide +kernel

namespace IsMark

variable {m : Char}

theorem toLower_eq_iff (h : IsMark m) {c : Char} (hc : c.toNat < 128) :
    c.toLower = m ↔ c = m := by
  have hall := h.alone ⟨c.toNat, hc⟩
  rwa [Char.ofNat_toNat] at hall

/-- What is no ASCII is no mark. -/
theorem ne_of_le (h : IsMark m) {c : Char} (hc : 128 ≤ c.toNat) : c ≠ m := by
  rintro rfl
  have hlow := h.ascii
  omega

/-- The small i has a capital, so that it is no mark. -/
theorem ne_i (h : IsMark m) : m ≠ 'i' := by
  rintro rfl
  exact absurd ((h.alone 73).mp (by decide)) (by decide)

theorem mem_lowerChar_iff (h : IsMark m) {c : Char} : m ∈ lowerChar c ↔ c = m := by
  rw [lowerChar]
  split
  · next hascii => rw [List.mem_singleton, eq_comm, h.toLower_eq_iff hascii]
  · next hascii =>
      have hne : c ≠ m := h.ne_of_le (Nat.le_of_not_lt hascii)
      refine iff_of_false ?_ hne
      split
      · intro hmem
        rcases List.mem_cons.mp hmem with hi | hdot
        · exact h.ne_i hi
        · exact h.ne_of_le (by decide) (List.mem_singleton.mp hdot).symm
      · have hcode : c.toNat ≠ m.toNat := by
          have hlow := h.ascii
          omega
        have hlower : lowerCode c.toNat lowercaseRuns ≠ m.toNat :=
          lowerCode_ne h.unreached.1 hcode h.unreached.2
        rw [List.mem_singleton]
        exact fun heq => hlower (toNat_eq_of_ofNat_eq h.unreached.1 heq.symm).symm

/-- Neither form of the small sigma is a mark. -/
theorem notMem_sigma (h : IsMark m) (final : Bool) : m ∉ if final then ['ς'] else ['σ'] := by
  cases final with
  | true => exact fun hmem => h.ne_of_le (by decide) (List.mem_singleton.mp hmem).symm
  | false => exact fun hmem => h.ne_of_le (by decide) (List.mem_singleton.mp hmem).symm

theorem mem_lowerAfter_iff (h : IsMark m) {before cs : List Char} :
    m ∈ lowerAfter before cs ↔ m ∈ cs := by
  induction cs generalizing before with
  | nil => rw [lowerAfter]
  | cons c rest ih =>
      rw [lowerAfter, List.mem_append, ih, List.mem_cons]
      refine or_congr_left ?_
      split
      · next hsigma =>
          subst hsigma
          exact iff_of_false (h.notMem_sigma _) (h.ne_of_le (by decide)).symm
      · rw [h.mem_lowerChar_iff, eq_comm]

/-- Lowercase neither adds nor drops a mark. -/
theorem mem_fold_iff (h : IsMark m) {s : String} : m ∈ (fold s).toList ↔ m ∈ s.toList := by
  rw [toList_fold, h.mem_lowerAfter_iff]

end IsMark

theorem fold_eq_empty_iff {s : String} : fold s = "" ↔ s = "" := by
  rw [← String.toList_inj, toList_fold]
  exact lowerAfter_eq_nil_iff.trans String.toList_eq_nil_iff

/-- A mark past which lowercase does not look: it has no case, and is not stepped over. -/
structure IsDivider (m : Char) : Prop extends IsMark m where
  uncased : isCased m = false
  met : isCaseIgnorable m = false

theorem isDivider_bar : IsDivider '|' where
  toIsMark := isMark_bar
  uncased := by decide +kernel
  met := by decide +kernel

theorem isDivider_bracket : IsDivider '[' where
  toIsMark := isMark_bracket
  uncased := by decide +kernel
  met := by decide +kernel

theorem isDivider_closing : IsDivider ']' where
  ascii := by decide
  alone := by decide
  unreached := by decide +kernel
  uncased := by decide +kernel
  met := by decide +kernel

namespace IsDivider

variable {m : Char}

theorem casedAfterIgnorable_append (h : IsDivider m) (a b : List Char) :
    casedAfterIgnorable (a ++ m :: b) = casedAfterIgnorable a := by
  induction a with
  | nil =>
      rw [casedAfterIgnorable, List.nil_append,
        List.dropWhile_cons_of_neg (ne_true_of_eq_false h.met)]
      exact h.uncased
  | cons c a ih =>
      by_cases hc : isCaseIgnorable c = true
      · rw [casedAfterIgnorable, casedAfterIgnorable, List.cons_append,
          List.dropWhile_cons_of_pos hc, List.dropWhile_cons_of_pos hc]
        exact ih
      · rw [casedAfterIgnorable, casedAfterIgnorable, List.cons_append,
          List.dropWhile_cons_of_neg hc, List.dropWhile_cons_of_neg hc]

/-- Behind a divider, lowercase does not know what stood in front of it. -/
theorem lowerAfter_behind (h : IsDivider m) (before front cs : List Char) :
    lowerAfter (before ++ m :: front) cs = lowerAfter before cs := by
  induction cs generalizing before with
  | nil => rw [lowerAfter, lowerAfter]
  | cons c rest ih =>
      have hrest := ih (c :: before)
      rw [List.cons_append] at hrest
      rw [lowerAfter, lowerAfter, h.casedAfterIgnorable_append, hrest]

theorem lowerAfter_cons (h : IsDivider m) (before rest : List Char) :
    lowerAfter before (m :: rest) = m :: lowerAfter [] rest := by
  have hself : lowerChar m = [m] := by
    rw [lowerChar, if_pos h.ascii, (h.toLower_eq_iff h.ascii).mpr rfl]
  have hbehind := h.lowerAfter_behind [] before rest
  rw [List.nil_append] at hbehind
  rw [lowerAfter, if_neg (h.ne_of_le (by decide)).symm, hself, hbehind]
  rfl

theorem lowerAfter_append (h : IsDivider m) (before a b : List Char) :
    lowerAfter before (a ++ m :: b) = lowerAfter before a ++ m :: lowerAfter [] b := by
  induction a generalizing before with
  | nil => rw [List.nil_append, h.lowerAfter_cons, lowerAfter, List.nil_append]
  | cons c a ih =>
      rw [List.cons_append, lowerAfter, lowerAfter, h.casedAfterIgnorable_append, ih,
        List.append_assoc]

/-- A character that is no divider has a lowercase without one, which stays the same when the
text is cut at the next divider. -/
theorem exists_lower_cons (h : IsDivider m) {c : Char} (hc : c ≠ m) (before rest : List Char) :
    ∃ here, m ∉ here ∧ lowerAfter before (c :: rest) = here ++ lowerAfter (c :: before) rest
      ∧ ∀ a b, rest = a ++ m :: b →
        lowerAfter before (c :: a) = here ++ lowerAfter (c :: before) a := by
  refine ⟨_, ?_, lowerAfter.eq_2 before c rest, ?_⟩
  · split
    · exact h.notMem_sigma _
    · exact fun hmem => hc (h.mem_lowerChar_iff.mp hmem)
  · rintro a b rfl
    rw [lowerAfter, h.casedAfterIgnorable_append]

/-- The lowercase of a text can be taken apart at a divider exactly as the text can. -/
theorem lowerAfter_eq_append_iff (h : IsDivider m) {before cs x y : List Char} :
    lowerAfter before cs = x ++ m :: y ↔
      ∃ a b, cs = a ++ m :: b ∧ lowerAfter before a = x ∧ lowerAfter [] b = y := by
  constructor
  · intro hlower
    induction cs generalizing before x with
    | nil => exact absurd hlower (by simp [lowerAfter])
    | cons c rest ih =>
        by_cases hc : c = m
        · subst hc
          rw [h.lowerAfter_cons] at hlower
          cases x with
          | nil => exact ⟨[], rest, rfl, rfl, (List.cons.inj hlower).2⟩
          | cons d x =>
              obtain ⟨rfl, htail⟩ := List.cons.inj hlower
              obtain ⟨a, b, rfl, hx, hy⟩ := ih htail
              exact ⟨c :: a, b, rfl, by rw [h.lowerAfter_cons, hx], hy⟩
        · obtain ⟨here, hmark, heq, hcut⟩ := h.exists_lower_cons hc before rest
          rw [heq] at hlower
          -- the divider stands behind the lowercase of the first character
          obtain ⟨x', rfl, htail⟩ : ∃ x', x = here ++ x'
              ∧ lowerAfter (c :: before) rest = x' ++ m :: y := by
            rcases List.append_eq_append_iff.mp hlower with ⟨x', hx, htail⟩ | ⟨t, rfl, htail⟩
            · exact ⟨x', hx, htail⟩
            · cases t with
              | nil => exact ⟨[], by simp, by simpa using htail.symm⟩
              | cons d t =>
                  obtain ⟨rfl, -⟩ := List.cons.inj htail
                  exact absurd (by simp) hmark
          obtain ⟨a, b, rfl, hx, hy⟩ := ih htail
          exact ⟨c :: a, b, rfl, by rw [hcut a b rfl, hx], hy⟩
  · rintro ⟨a, b, rfl, rfl, rfl⟩
    exact h.lowerAfter_append before a b

end IsDivider

/-- The lowercase of a text with a bar in it is that of its two parts. -/
theorem fold_bar (a b : String) : fold (a ++ "|" ++ b) = fold a ++ "|" ++ fold b := by
  rw [← String.toList_inj]
  simp [toList_fold, isDivider_bar.lowerAfter_append]

end Tabular.Text
