import Tabular.Formula.Comment
import Tabular.Text.Ascii
import Tabular.Text.Blank
import Tabular.Text.Doubled
import Tabular.Text.Letter

/-!
# Names mentioned in a formula

A formula mentions objects in three ways: by a quoted table and a bracketed name right
behind it, by a quoted table alone, and by a bracketed name alone. What a bracketed name
alone means is decided by the code in front of it, so a mention keeps that code, back to
the last name or string: nothing further back can matter, since a name and a string end
in a mark that is part of no word.

A name that is never closed ends the reading.
-/

namespace Tabular.Formula

open Text

/-- A name or a pair of names as a formula writes it. -/
inductive Mention where
  /-- A quoted table and a name in brackets. -/
  | qualified (table name : String)
  /-- A quoted table alone. -/
  | table (name : String)
  /-- A name in brackets, with the code in front of it, the nearest character first. -/
  | bracketed (lead : List Char) (name : String)
  deriving DecidableEq, Inhabited, Repr

/-- The text behind the end of a string literal. -/
def afterString (cs : List Char) : List Char := (cs.dropWhile (· != '"')).drop 1

theorem length_afterString (cs : List Char) : (afterString cs).length ≤ cs.length := by
  simp only [afterString, List.length_drop]
  have := (List.dropWhile_suffix (· != '"') (l := cs)).length_le
  omega

/-- The mentions in a text of code, behind some code that is given from its end. -/
def mentionsAfter (lead : List Char) (code : List Char) : List Mention :=
  match code with
  | [] => []
  | c :: rest =>
      if c = '\'' then
        match h : readUntil? '\'' rest with
        | none => []
        | some (table, '[' :: rest') =>
            have := length_readUntil? h
            match h' : readUntil? ']' rest' with
            | none => []
            | some (name, rest'') =>
                have := length_readUntil? h'
                .qualified (String.ofList table) (String.ofList name)
                  :: mentionsAfter [] rest''
        | some (table, rest') =>
            have := length_readUntil? h
            .table (String.ofList table) :: mentionsAfter [] rest'
      else if c = '[' then
        match h : readUntil? ']' rest with
        | none => []
        | some (name, rest') =>
            have := length_readUntil? h
            .bracketed lead (String.ofList name) :: mentionsAfter [] rest'
      else if c = '"' then
        have := length_afterString rest
        mentionsAfter [] (afterString rest)
      else mentionsAfter (c :: lead) rest
termination_by code.length
decreasing_by all_goals simp only [List.length_cons] at *; omega

/-- The mentions in a formula, in the order in which they stand there. -/
def mentions (formula : String) : List Mention := mentionsAfter [] (codeOnly formula.toList)

/-- The word that touches the end of some code. -/
def touchingWord (lead : List Char) : String :=
  String.ofList (lead.takeWhile fun c => isAlphanumeric c || c == '_').reverse

/-- The letters that some code ends with, blanks aside. -/
def lastLetters (lead : List Char) : String :=
  String.ofList ((lead.dropWhile isBlank).takeWhile isLetter).reverse

/-- The words behind which a bracketed name is declared and not used. -/
def declaringWords : List String := ["VAR", "DEFINE", "MEASURE", "COLUMN"]

/-- Whether a bracketed name behind some code names a parameter. -/
def marksParameter (lead : List Char) : Bool := lead.head? == some '@'

/-- Whether a bracketed name behind some code is declared there. -/
def declaresName (lead : List Char) : Bool :=
  declaringWords.any fun w => sameWord w (lastLetters lead)

end Tabular.Formula
