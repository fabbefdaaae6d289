import Tabular.Proofs.Formula.Mentions

/-!
# What a formula hides

Two parts of a formula say nothing: comments and the insides of strings. Wherever a
formula stands in code, a comment may be put there, and it counts as one blank; and
whatever a string literal says, the formula refers to the same objects.

Both are statements about two formulas that differ in the hidden part alone. The piece in
front of it reads alone, and so the two readings meet again behind it, in front of the
same text. There, code that ends in the blanks of a comment decides about a bracket as
code that ends in one blank does, and behind a string neither reading looks back.

A mark in front of the hidden part must not go together with the one that opens it: a
slash in front of a comment of slashes would open the comment earlier, and a quote in
front of a string would be one of two that stand for one.
-/

namespace Tabular.Formula

/-- A text that is read to its end outside of names, strings and comments. -/
def EndsInCode (p : List Char) : Prop := Place.after .code none p = .code

instance (p : List Char) : Decidable (EndsInCode p) :=
  inferInstanceAs (Decidable (Place.after .code none p = .code))

theorem resolve_eq_of_map_eq {index : Index} {f g : String}
    (h : (mentions f).map (References.ofMention index) =
      (mentions g).map (References.ofMention index)) :
    resolve index f = resolve index g := by
  have hfold : ∀ ms : List Mention, References.ofMentions index ms =
      (ms.map (References.ofMention index)).foldl (· ∪ ·) ∅ := fun ms => List.foldl_map.symm
  rw [resolve, resolve, hfold, hfold, h]

/-- The code of a text that ends in code, with a text behind it. -/
theorem codeOnly_append {p : List Char} (hp : EndsInCode p) {x : Char}
    (hlast : p.getLast? ≠ some x ∨ x = ' ') (hstar : x ≠ '*') (rest : List Char) :
    codeOnly (p ++ x :: rest) = codeOnly p ++ codeOnly (x :: rest) := by
  obtain ⟨hroles, hafter⟩ := roles_following hp hlast hstar
  rw [codeOnly_eq, codeOnly_eq, codeOnly_eq, roles_append, List.head?_cons, Option.some_or,
    hroles, hafter, codeOf_append]

theorem codeOnly_comment {c : List Char} (h : IsComment c) (rest : List Char) :
    codeOnly (c ++ rest) = c.map blanked ++ codeOnly rest := by
  rw [codeOnly_eq, roles_comment h, codeOf_append, codeOf_map_comment, codeOnly_eq]

theorem codeOnly_literal {rest : List Char} (h : rest.head? ≠ some '"') (text : List Char) :
    codeOnly (literal text ++ rest) =
      '"' :: ((Text.double '"' text).map blanked ++ '"' :: codeOnly rest) := by
  rw [codeOnly_eq, codeOnly_eq, codeOf_literal]
  rwa [Option.or_none]

/-- What opens a comment. -/
theorem IsComment.exists_cons {c : List Char} (h : IsComment c) :
    ∃ x rest, c = x :: rest ∧ x ≠ '*' := by
  cases h with
  | block hbody => exact ⟨'/', _, rfl, by decide⟩
  | line hmark hbody =>
      refine ⟨_, _, rfl, ?_⟩
      rcases hmark with rfl | rfl
      · decide
      · decide

theorem standsApart_blanked (c : Char) (X : List Char) :
    StandsApart (blanked c :: X) where
  quote h := blanked_ne (by decide) (by decide) (Option.some.inj h)
  bracket h := blanked_ne (by decide) (by decide) (Option.some.inj h)
  closing h := blanked_ne (by decide) (by decide) (Option.some.inj h)

/-- A comment counts as a blank. -/
theorem map_ofMention_comment (index : Index) {p c : List Char} (hp : EndsInCode p)
    (hc : IsComment c) (hlast : p.getLast? ≠ c.head?) (q : List Char) :
    (mentionsAfter [] (codeOnly (p ++ (c ++ q)))).map (References.ofMention index) =
      (mentionsAfter [] (codeOnly (p ++ ' ' :: q))).map (References.ofMention index) := by
  obtain ⟨ms, lead, hms⟩ := readsAlone_of_after hp []
  obtain ⟨x, rest, rfl, hstar⟩ := hc.exists_cons
  have hcode : codeOnly (p ++ (x :: rest ++ q)) =
      codeOnly p ++ ((x :: rest).map blanked ++ codeOnly q) := by
    rw [← codeOnly_comment hc]
    exact codeOnly_append hp (Or.inl hlast) hstar (rest ++ q)
  have hblank : codeOnly (p ++ ' ' :: q) = codeOnly p ++ ' ' :: codeOnly q :=
    codeOnly_append hp (Or.inr rfl) (by decide) q
  have hapart : StandsApart ((x :: rest).map blanked ++ codeOnly q) := standsApart_blanked x _
  have hapart' : StandsApart (' ' :: codeOnly q) := standsApart_blanked ' ' _
  rw [hcode, hblank, codeOnly_eq p, hms _ hapart, hms _ hapart', List.map_append,
    List.map_append,
    mentionsAfter_append_plain fun _ => isPlainCode_of_mem_map_blanked,
    mentionsAfter_cons ⟨by decide, by decide, by decide⟩,
    (SameLead.blanks (List.cons_ne_nil x rest) lead).map_ofMention index]

/-- What a string says does not count. -/
theorem mentionsAfter_literal {p q : List Char} (hp : EndsInCode p)
    (hlast : p.getLast? ≠ some '"') (hnext : q.head? ≠ some '"') :
    ∃ ms, ∀ text, mentionsAfter [] (codeOnly (p ++ (literal text ++ q))) =
      ms ++ mentionsAfter [] (codeOnly q) := by
  obtain ⟨ms, lead, hms⟩ := readsAlone_of_after hp []
  refine ⟨ms, fun text => ?_⟩
  have hcode : codeOnly (p ++ (literal text ++ q)) =
      codeOnly p ++ '"' :: ((Text.double '"' text).map blanked ++ '"' :: codeOnly q) := by
    rw [← codeOnly_literal hnext]
    exact codeOnly_append hp (Or.inl hlast) (by decide) _
  rw [hcode, codeOnly_eq p, hms _ ⟨by simp, by simp, by simp⟩,
    mentionsAfter_string (quote_not_mem_map_blanked _)]

/-- Where a formula stands in code, a comment counts as one blank, and one string literal
as good as another. -/
theorem resolve_hidden (index : Index) (p q : String) (hp : EndsInCode p.toList) :
    (∀ c : String, IsComment c.toList → p.toList.getLast? ≠ c.toList.head? →
      resolve index (p ++ c ++ q) = resolve index (p ++ " " ++ q))
    ∧ (p.toList.getLast? ≠ some '"' → q.toList.head? ≠ some '"' → ∀ s t : List Char,
      resolve index (p ++ String.ofList (literal s) ++ q) =
        resolve index (p ++ String.ofList (literal t) ++ q)) := by
  constructor
  · intro c hc hlast
    have h := map_ofMention_comment index hp hc hlast q.toList
    refine resolve_eq_of_map_eq ?_
    rw [mentions, mentions]
    simpa using h
  · intro hlast hnext s t
    obtain ⟨ms, hms⟩ := mentionsAfter_literal hp hlast hnext
    refine resolve_eq_of_map_eq (congrArg _ ?_)
    rw [mentions, mentions]
    simpa using (hms s).trans (hms t).symm

/-- A reference in a comment and one in a string behind a sum. -/
theorem resolve_hidden_salesAmount :
    EndsInCode "SUM('Sales'[Amount]) & ".toList
    ∧ IsComment "/* 'Fake'[Ref] */".toList
    ∧ resolve (.ofRows [] [⟨"Sales", "Amount"⟩])
        ("SUM('Sales'[Amount]) & " ++ "/* 'Fake'[Ref] */" ++ " & [Total]") =
      resolve (.ofRows [] [⟨"Sales", "Amount"⟩])
        ("SUM('Sales'[Amount]) & " ++ " " ++ " & [Total]")
    ∧ resolve (.ofRows [] [⟨"Sales", "Amount"⟩])
        ("SUM('Sales'[Amount]) & " ++ String.ofList (literal ['[', 'X', ']'])
          ++ " & [Total]") =
      resolve (.ofRows [] [⟨"Sales", "Amount"⟩])
        ("SUM('Sales'[Amount]) & " ++ String.ofList (literal ['"', '-', '-'])
          ++ " & [Total]") := by
  have hp : EndsInCode "SUM('Sales'[Amount]) & ".toList := by decide +kernel
  have hc : IsComment "/* 'Fake'[Ref] */".toList := by
    have hchars : "/* 'Fake'[Ref] */".toList =
        '/' :: '*' :: (" 'Fake'[Ref] ".toList ++ ['*', '/']) := by simp
    rw [hchars]
    exact .block (by decide +kernel)
  obtain ⟨hcomment, hliteral⟩ := resolve_hidden (.ofRows [] [⟨"Sales", "Amount"⟩])
    "SUM('Sales'[Amount]) & " " & [Total]" hp
  exact ⟨hp, hc, hcomment "/* 'Fake'[Ref] */" hc (by decide +kernel),
    hliteral (by decide +kernel) (by decide +kernel) ['[', 'X', ']'] ['"', '-', '-']⟩

end Tabular.Formula
