import Tabular.Proofs.Formula.Hidden
import Tabular.Proofs.Formula.Sum

/-!
# Two formulas added up

A formula is answered mention by mention, and its references are the union of the answers.
Where the reading of a formula ends in code, whatever is put behind it is read from there,
with the code in front as all that it knows of the first part. A plus between two parts
hides even that: no parameter, no table and no declaration reaches over it. So the sum of two
formulas is answered as the one and then the other, even if the second one breaks off inside a
name, a string or a comment.
-/

namespace Tabular.Formula

open Ordered Text

/-! ## Answers and their union -/

/-- What the mentions of a formula refer to, one after the other. -/
def answers (index : Index) (formula : String) : List References :=
  (mentions formula).map (References.ofMention index)

namespace References

theorem union_assoc (r s t : References) : r ∪ s ∪ t = r ∪ (s ∪ t) := by
  change (⟨_, _, _, _, _, _⟩ : References) = ⟨_, _, _, _, _, _⟩
  congr 1
  all_goals exact SortedSet.union_assoc _ _ _

theorem empty_union (r : References) : ∅ ∪ r = r := by
  obtain ⟨tables, columns, measures, identifiers, unresolved, ambiguous⟩ := r
  change (⟨_, _, _, _, _, _⟩ : References) = ⟨_, _, _, _, _, _⟩
  congr 1
  all_goals exact SortedSet.empty_union _

/-- The union of some references. -/
def unionAll (rs : List References) : References := rs.foldl (· ∪ ·) ∅

theorem foldl_union (r : References) (rs : List References) :
    rs.foldl (· ∪ ·) r = r ∪ unionAll rs := by
  induction rs generalizing r with
  | nil => rfl
  | cons s rs ih =>
      rw [unionAll, List.foldl_cons, List.foldl_cons, ih, ih, empty_union, union_assoc]

theorem unionAll_append (rs ss : List References) :
    unionAll (rs ++ ss) = unionAll rs ∪ unionAll ss := by
  rw [unionAll, List.foldl_append, foldl_union]
  rfl

end References

theorem resolve_eq_unionAll (index : Index) (formula : String) :
    resolve index formula = .unionAll (answers index formula) := by
  rw [resolve, References.ofMentions, References.unionAll, answers, List.foldl_map]

/-! ## Behind a formula that ends in code -/

/-- What is put behind a formula that ends in code is read behind its code. -/
theorem exists_lead_of_endsInCode {p : List Char} (hp : EndsInCode p) :
    ∃ lead, SameLead lead (codeOnly p).reverse ∧ ∀ X, StandsBehind p X →
      mentionsAfter [] (codeOnly p ++ X) =
        mentionsAfter [] (codeOnly p) ++ mentionsAfter lead X := by
  obtain ⟨ms, lead, hlead, hms⟩ := readsBefore_of_after hp []
  have hnil := hms [] ⟨by simp, by simp, by simp⟩
  rw [List.append_nil, mentionsAfter_nil, List.append_nil] at hnil
  rw [List.append_nil] at hlead
  refine ⟨lead, hlead, fun X hX => ?_⟩
  rw [codeOnly_eq, hms X hX, hnil]

/-- A plus hides what stands in front of it. -/
theorem SameLead.plus (lead : List Char) : SameLead (Term.plus.reverse ++ lead) [] :=
  ⟨rfl, rfl, rfl, rfl⟩

/-- A sum is answered as its first part and then its second. -/
theorem answers_plus (index : Index) {p : String} (hp : EndsInCode p.toList) (q : String) :
    answers index (p ++ " + " ++ q) = answers index p ++ answers index q := by
  obtain ⟨lead, -, hread⟩ := exists_lead_of_endsInCode hp
  have hcode : codeOnly (p ++ " + " ++ q).toList =
      codeOnly p.toList ++ (Term.plus ++ codeOnly q.toList) := by
    rw [codeOnly_eq q.toList, ← Term.codeOf_plus, ← codeOnly_eq]
    simpa [Term.plus] using codeOnly_append hp (Or.inr rfl) (by decide) ('+' :: ' ' :: q.toList)
  rw [answers, answers, answers, mentions, mentions, mentions, hcode,
    hread _ ((Term.standsApart_plus _).standsBehind p.toList), List.map_append,
    mentionsAfter_append_plain fun _ => Term.isPlainCode_of_mem_plus,
    (SameLead.plus lead).map_ofMention index]

/-- The references of a sum are those of its two parts together, field by field. The second
part may be any text. -/
theorem resolve_plus (index : Index) (p q : String) (hp : EndsInCode p.toList) :
    resolve index (p ++ " + " ++ q) = resolve index p ∪ resolve index q := by
  rw [resolve_eq_unionAll, answers_plus index hp, References.unionAll_append,
    ← resolve_eq_unionAll, ← resolve_eq_unionAll]

/-- A comment that ends with its line, and a second part that breaks off inside a name. -/
theorem resolve_plus_openName :
    EndsInCode "SUM('Sales'[Amount]) // [Old\n".toList
    ∧ resolve (.ofRows [] [⟨"Sales", "Amount"⟩])
        ("SUM('Sales'[Amount]) // [Old\n" ++ " + " ++ "[Total] + @[P] - 'Sal") =
      resolve (.ofRows [] [⟨"Sales", "Amount"⟩]) "SUM('Sales'[Amount]) // [Old\n"
        ∪ resolve (.ofRows [] [⟨"Sales", "Amount"⟩]) "[Total] + @[P] - 'Sal" := by
  have hp : EndsInCode "SUM('Sales'[Amount]) // [Old\n".toList := by decide +kernel
  exact ⟨hp, resolve_plus _ _ _ hp⟩

end Tabular.Formula
