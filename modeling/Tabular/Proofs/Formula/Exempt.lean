import Mathlib.Data.List.DropRight
import Tabular.Proofs.Formula.Plus
import Tabular.Proofs.Text.Blank

/-!
# Names that are left out of the references

A name in brackets that belongs to no table may be a parameter, with an at sign right in front
of it, or be declared where it stands, with one of four words in front of it. Such a name is
left out; every other one is looked up in the index.

Of the word in front only the letters are read, from its end backwards. The word as a whole
may be longer, since digits and underscores belong to a word too: `Net_Measure` is none of the
four words, yet a name behind it is left out as if it were declared there. So the rule that
the words are meant for is kept exactly where no word has one of the four for its end, behind
a digit or an underscore. A word that has only more letters in front is no exception.
-/

namespace Tabular.Formula

open Ordered Text

/-! ## The word in front of a place -/

/-- Whether a character belongs to a word: a letter, a digit or an underscore. -/
def isWordPart (c : Char) : Bool := isAlphanumeric c || c == '_'

/-- The word that some code ends with. -/
def wordAtEnd (code : List Char) : List Char := code.rtakeWhile isWordPart

/-- The whole word in front of a place, blanks aside. -/
def wordBefore (code : List Char) : List Char := wordAtEnd (trimEnd code)

/-- Whether a name is declared behind a word: it is one of the four words, in any case. -/
def IsDeclaring (word : List Char) : Prop :=
  ∃ w ∈ declaringWords, sameWord w (String.ofList word) = true

instance (word : List Char) : Decidable (IsDeclaring word) :=
  inferInstanceAs (Decidable (∃ w ∈ declaringWords, _))

/-- A word has one of the four words for its end, behind a digit or an underscore. -/
def EndsInDeclaring (word : List Char) : Prop :=
  ∃ front mark last, word = front ++ mark :: last ∧ isLetter mark = false ∧ IsDeclaring last

theorem isAlpha_of_toLower {c : Char} (h : c.toLower.isAlpha = true) : c.isAlpha = true := by
  by_cases hupper : c.isUpper = true
  · exact Bool.or_eq_true_iff.mpr (Or.inl hupper)
  · have hkept : c.toLower = c := dif_neg fun hrange => hupper (decide_eq_true hrange)
    rwa [hkept] at h

/-- The four words are made of letters. -/
theorem IsDeclaring.letters {word : List Char} (h : IsDeclaring word) :
    ∀ c ∈ word, isLetter c = true := by
  obtain ⟨w, hw, hsame⟩ := h
  have hall : (declaringWords.all fun w => (asciiLower w.toList).all Char.isAlpha) = true := by
    decide
  have hletters := List.all_eq_true.mp (List.all_eq_true.mp hall w hw)
  have hword : asciiLower w.toList = asciiLower word := by
    simpa [sameWord] using hsame
  intro c hc
  refine isLetter_of_isAlpha (isAlpha_of_toLower (hletters _ ?_))
  rw [hword]
  exact List.mem_map_of_mem hc

/-- The letters at the end of a word are one of the four words when the word is, or when it
ends in one. -/
theorem isDeclaring_letters_iff (word : List Char) :
    IsDeclaring (word.rtakeWhile isLetter) ↔ IsDeclaring word ∨ EndsInDeclaring word := by
  constructor
  · intro h
    by_cases hfront : word.rdropWhile isLetter = []
    · have hword := List.rtakeWhile_eq_self_iff.mpr (List.rdropWhile_eq_nil_iff.mp hfront)
      exact Or.inl (hword ▸ h)
    · have hmark := List.rdropWhile_last_not isLetter word hfront
      refine Or.inr ⟨(word.rdropWhile isLetter).dropLast, _, _, ?_,
        eq_false_of_ne_true hmark, h⟩
      rw [List.append_cons, List.dropLast_append_getLast, List.rdropWhile_append_rtakeWhile]
  · rintro (h | ⟨front, mark, last, rfl, hmark, h⟩)
    · rwa [List.rtakeWhile_eq_self_iff.mpr h.letters]
    · have hlast : ∀ c ∈ last.reverse, isLetter c = true :=
        fun c hc => h.letters c (List.mem_reverse.mp hc)
      rwa [List.rtakeWhile, List.reverse_append, List.reverse_cons, List.append_assoc,
        List.takeWhile_append_of_pos hlast, List.singleton_append,
        List.takeWhile_cons_of_neg (by rw [hmark]; decide), List.append_nil,
        List.reverse_reverse]

/-- A declaring word is none that ends in one behind a digit or an underscore. -/
theorem IsDeclaring.not_endsInDeclaring {word : List Char} (h : IsDeclaring word) :
    ¬ EndsInDeclaring word := by
  rintro ⟨front, mark, last, rfl, hmark, -⟩
  have hletter := h.letters mark (List.mem_append_right front List.mem_cons_self)
  rw [hmark] at hletter
  cases hletter

/-! ## What is read in front of a bracket -/

theorem marksParameter_reverse_iff (code : List Char) :
    marksParameter code.reverse = true ↔ code.getLast? = some '@' := by
  rw [marksParameter, List.head?_reverse, beq_iff_eq]

theorem touchingWord_reverse (code : List Char) :
    touchingWord code.reverse = String.ofList (wordAtEnd code) := rfl

/-- The letters that decide are those at the end of the whole word. -/
theorem lastLetters_reverse (code : List Char) :
    lastLetters code.reverse = String.ofList ((wordBefore code).rtakeWhile isLetter) := by
  have hpart : ∀ c, (isLetter c = true ∧ isWordPart c = true) ↔ isLetter c = true :=
    fun c => and_iff_left_of_imp fun h => by rw [isWordPart, isAlphanumeric_of_isLetter h]; rfl
  simp only [lastLetters, wordBefore, wordAtEnd, List.rtakeWhile, trimEnd, List.reverse_reverse,
    List.takeWhile_takeWhile, hpart, Bool.decide_eq_true]

theorem declaresName_reverse_iff (code : List Char) :
    declaresName code.reverse = true ↔
      IsDeclaring (wordBefore code) ∨ EndsInDeclaring (wordBefore code) := by
  rw [← isDeclaring_letters_iff, declaresName, lastLetters_reverse, List.any_eq_true]
  rfl

/-- Behind an at sign there is no word. -/
theorem wordBefore_of_at {code : List Char} (h : code.getLast? = some '@') :
    wordBefore code = [] := by
  obtain ⟨front, rfl⟩ := List.getLast?_eq_some_iff.mp h
  have hkept : trimEnd (front ++ ['@']) = front ++ ['@'] :=
    trimEnd_append_of_not_allBlank (by decide) front
  rw [wordBefore, hkept, wordAtEnd, List.rtakeWhile_concat_neg _ _ _ (by decide)]

/-! ## A name alone, in its formula -/

/-- A formula with a name in brackets. -/
def withBracketed (before name after : String) : String :=
  before ++ String.ofList (Term.bare name).text ++ after

/-- A place in a formula where a name in brackets stands alone, with what is in front of it and
behind it. -/
structure StandsAlone (index : Index) (before after : String) : Prop where
  /-- It stands in code. -/
  code : EndsInCode before.toList
  /-- No quoted table touches it. -/
  unquoted : before.toList.getLast? ≠ some '\''
  /-- No word touches it that names a known table. -/
  unowned : wordAtEnd (codeOnly before.toList) ≠ [] →
    index.hasTable (String.ofList (wordAtEnd (codeOnly before.toList))) = false
  /-- It ends with its bracket. -/
  closed : after.toList.head? ≠ some ']'

/-- A name in brackets brings some references into its formula, and nothing else changes. -/
structure Brings (index : Index) (before name after : String) (r : References) : Prop where
  answered : answers index (withBracketed before name after) =
    answers index before ++ r :: answers index after
  resolved : resolve index (withBracketed before name after) =
    resolve index before ∪ (r ∪ resolve index after)

theorem brings_of_answers {index : Index} {before name after : String} {r : References}
    (h : answers index (withBracketed before name after) =
      answers index before ++ r :: answers index after) : Brings index before name after r where
  answered := h
  resolved := by
    have hcons : References.unionAll (r :: answers index after) =
        r ∪ References.unionAll (answers index after) := by
      rw [References.unionAll, List.foldl_cons, References.foldl_union, References.empty_union]
    rw [resolve_eq_unionAll, h, References.unionAll_append, hcons, ← resolve_eq_unionAll,
      ← resolve_eq_unionAll]

/-- The reading stands at the end of a comment only in front of a slash. -/
theorem Place.following_of_step_eq_closing {place : Place} {c : Char} {following : Option Char}
    (h : (place.step c following).2 = .closing) : following = some '/' := by
  cases place with
  | block => grind [Place.step]
  | code => grind [Place.step]
  | within close => grind [Place.step]
  | line => grind [Place.step]
  | doubled close => cases h
  | opening => cases h
  | closing => cases h

theorem Place.following_of_after_eq_closing {following : Option Char} {cs : List Char}
    (h : Place.after .code following cs = .closing) : following = some '/' := by
  rcases List.eq_nil_or_concat cs with rfl | ⟨front, c, rfl⟩
  · cases h
  · rw [List.concat_eq_append, Place.after_append] at h
    exact following_of_step_eq_closing h

/-- A text that ends in code does not end with a bracket that opens a name. -/
theorem EndsInCode.getLast?_ne_bracket {p : List Char} (h : EndsInCode p) :
    p.getLast? ≠ some '[' := by
  intro hlast
  obtain ⟨front, rfl⟩ := List.getLast?_eq_some_iff.mp hlast
  rw [EndsInCode, Place.after_append] at h
  have hmark := Place.after_endsAtMark (show Place.EndsAtMark .code from trivial)
    (some '[') front
  have hclosing : Place.after .code (some '[') front ≠ .closing := fun hend =>
    absurd (Place.following_of_after_eq_closing hend) (by decide)
  simp only [List.head?_cons, Option.some_or] at h
  cases hplace : Place.after .code (some '[') front with
  | within close =>
      rw [hplace] at h hmark
      rcases hmark with rfl | rfl | rfl
      · cases h
      · cases h
      · cases h
  | closing => exact hclosing hplace
  | code | doubled _ | opening | block | line =>
      rw [hplace] at h
      cases h

section StandsAlone

variable {index : Index} {before after : String} (h : StandsAlone index before after)

include h

/-- A name that stands alone is answered by the code in front of it. -/
theorem brings_withBracketed (name : String) :
    Brings index before name after
      (References.ofMention index (.bracketed (codeOnly before.toList).reverse name)) := by
  refine brings_of_answers ?_
  obtain ⟨lead, hlead, hread⟩ := exists_lead_of_endsInCode h.code
  have hnext : after.toList.head?.or none ≠ some ']' := by
    rw [Option.or_none]
    exact h.closed
  have hclosed : (codeOnly after.toList).head? ≠ some ']' := by
    have hhead := head?_codeOf_ne .code none (X := []) (by decide) hnext
    rwa [List.append_nil] at hhead
  have hcode : codeOnly (withBracketed before name after).toList =
      codeOnly before.toList
        ++ '[' :: (double ']' name.toList ++ ']' :: codeOnly after.toList) := by
    rw [codeOnly_eq after.toList, ← codeOf_bracketed hnext, ← codeOnly_eq,
      ← codeOnly_append h.code (Or.inl h.code.getLast?_ne_bracket) (by decide)]
    simp [withBracketed, Term.text, Term.marked]
  have hbehind : StandsBehind before.toList
      ('[' :: (double ']' name.toList ++ ']' :: codeOnly after.toList)) :=
    ⟨by simp, by simp, fun hquote => absurd hquote h.unquoted⟩
  rw [answers, answers, answers, mentions, mentions, mentions, hcode, hread _ hbehind,
    mentionsAfter_bracketed (readUntil?_double hclosed _), String.ofList_toList,
    List.map_append, List.map_cons, hlead.ofMention_eq index name]

/-- It is left out behind an at sign and behind letters that declare, and looked up
otherwise. -/
theorem ofMention_reverse (name : String) :
    References.ofMention index (.bracketed (codeOnly before.toList).reverse name) =
      if marksParameter (codeOnly before.toList).reverse = true
          ∨ declaresName (codeOnly before.toList).reverse = true then ∅
      else .ofBare index name := by
  have hunowned : ¬ (!(String.ofList (wordAtEnd (codeOnly before.toList))).isEmpty
      && index.hasTable (String.ofList (wordAtEnd (codeOnly before.toList)))) = true := by
    rw [Bool.and_eq_true, Bool.not_eq_true', not_and, Bool.not_eq_true]
    intro hword
    refine h.unowned fun hnil => ?_
    rw [hnil] at hword
    cases hword
  rw [References.ofMention, touchingWord_reverse]
  simp only [if_neg hunowned]
  by_cases hat : marksParameter (codeOnly before.toList).reverse = true
  · rw [if_pos hat, if_pos (Or.inl hat)]
  · rw [if_neg hat]
    by_cases hword : declaresName (codeOnly before.toList).reverse = true
    · rw [if_pos hword, if_pos (Or.inr hword)]
    · rw [if_neg hword, if_neg (not_or.mpr ⟨hat, hword⟩)]

end StandsAlone

/-- Whether a name in brackets counts for nothing behind some code: it names a parameter, or
the whole word in front of it declares it. -/
def Exempts (code : List Char) : Prop :=
  code.getLast? = some '@' ∨ IsDeclaring (wordBefore code)

instance (code : List Char) : Decidable (Exempts code) :=
  inferInstanceAs (Decidable (_ ∨ _))

/-- A name in brackets is left out of the names of its formula where it is exempt, and only
there; everywhere else it is recorded and looked up as a name alone. -/
def CountsUnlessExempt (index : Index) (before name after : String) : Prop :=
  ∃ r, Brings index before name after r
    ∧ (name ∉ r.identifiers ↔ Exempts (codeOnly before.toList))
    ∧ (name ∈ r.identifiers → r = .ofBare index name)

theorem Brings.unique {index : Index} {before name after : String} {r r' : References}
    (h : Brings index before name after r) (h' : Brings index before name after r') : r = r' :=
  (List.cons.inj (List.append_cancel_left (h.answered.symm.trans h'.answered))).1

/-- The rule is kept exactly where the word in front does not have one of the four words for
its end, behind a digit or an underscore. -/
theorem countsUnlessExempt_iff_not_endsInDeclaring {index : Index} {before after : String}
    (h : StandsAlone index before after) (name : String) :
    CountsUnlessExempt index before name after ↔
      ¬ EndsInDeclaring (wordBefore (codeOnly before.toList)) := by
  constructor
  · rintro ⟨r, hr, hleft, -⟩ hend
    have hempty : r = ∅ := by
      rw [hr.unique (brings_withBracketed h name), ofMention_reverse h,
        if_pos (Or.inr ((declaresName_reverse_iff _).mpr (Or.inr hend)))]
    rw [hempty] at hleft
    rcases hleft.mp SortedSet.not_mem_empty with hat | hword
    · rw [wordBefore_of_at hat] at hend
      obtain ⟨front, mark, last, hnil, -⟩ := hend
      exact absurd hnil.symm (List.append_ne_nil_of_right_ne_nil front (List.cons_ne_nil _ _))
    · exact hword.not_endsInDeclaring hend
  · intro hend
    have hexempt : (marksParameter (codeOnly before.toList).reverse = true
        ∨ declaresName (codeOnly before.toList).reverse = true) ↔
          Exempts (codeOnly before.toList) := by
      rw [marksParameter_reverse_iff, declaresName_reverse_iff, or_iff_left hend, Exempts]
    refine ⟨_, brings_withBracketed h name, ?_⟩
    rw [ofMention_reverse h]
    by_cases hskip : marksParameter (codeOnly before.toList).reverse = true
        ∨ declaresName (codeOnly before.toList).reverse = true
    · rw [if_pos hskip]
      exact ⟨iff_of_true SortedSet.not_mem_empty (hexempt.mp hskip),
        fun hmem => absurd hmem SortedSet.not_mem_empty⟩
    · rw [if_neg hskip]
      exact ⟨iff_of_false (fun hleft => hleft (References.mem_identifiers_ofBare index name))
        fun hcode => hskip (hexempt.mpr hcode), fun _ => rfl⟩

/-- Behind a word that has only more letters in front, a name is looked up. -/
theorem countsUnlessExempt_iff_salesMeasure :
    StandsAlone (.ofRows [] [⟨"Sales", "Amount"⟩]) "VAR [x] = SUM(SalesMeasure /* old */ " ")"
    ∧ ¬ EndsInDeclaring (wordBefore (codeOnly "VAR [x] = SUM(SalesMeasure /* old */ ".toList))
    ∧ CountsUnlessExempt (.ofRows [] [⟨"Sales", "Amount"⟩])
        "VAR [x] = SUM(SalesMeasure /* old */ " "Amount" ")" := by
  have h : StandsAlone (.ofRows [] [⟨"Sales", "Amount"⟩])
      "VAR [x] = SUM(SalesMeasure /* old */ " ")" :=
    ⟨by decide +kernel, by decide +kernel, by decide +kernel, by decide +kernel⟩
  have hend : ¬ EndsInDeclaring
      (wordBefore (codeOnly "VAR [x] = SUM(SalesMeasure /* old */ ".toList)) := fun hend =>
    absurd ((isDeclaring_letters_iff _).mpr (Or.inr hend)) (by decide +kernel)
  exact ⟨h, hend, (countsUnlessExempt_iff_not_endsInDeclaring h "Amount").mpr hend⟩

/-- Behind a word that ends in one of the four, a name is lost. -/
theorem not_countsUnlessExempt_netMeasure :
    StandsAlone (.ofRows [] [⟨"Sales", "Amount"⟩]) "SUM(Net_Measure" ")"
    ∧ withBracketed "SUM(Net_Measure" "Amount" ")" = "SUM(Net_Measure[Amount])"
    ∧ ¬ CountsUnlessExempt (.ofRows [] [⟨"Sales", "Amount"⟩]) "SUM(Net_Measure" "Amount" ")" := by
  have h : StandsAlone (.ofRows [] [⟨"Sales", "Amount"⟩]) "SUM(Net_Measure" ")" :=
    ⟨by decide +kernel, by decide +kernel, by decide +kernel, by decide +kernel⟩
  refine ⟨h, by decide +kernel, ?_⟩
  rintro ⟨r, hr, hleft, -⟩
  have hempty : r = ∅ := by
    rw [hr.unique (brings_withBracketed h "Amount")]
    decide +kernel
  rw [hempty] at hleft
  exact absurd (hleft.mp SortedSet.not_mem_empty) (by decide +kernel)

end Tabular.Formula
