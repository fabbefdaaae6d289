/-!
# Words compared in ASCII

The words of the definition language are plain ASCII, and are compared without regard to
the case of ASCII letters only. All other characters stand for themselves.
-/

namespace Tabular.Text

/-- A text with its ASCII letters in lowercase. -/
def asciiLower (cs : List Char) : List Char := cs.map Char.toLower

/-- Whether two strings differ in the case of ASCII letters at most. -/
def sameWord (a b : String) : Bool := asciiLower a.toList == asciiLower b.toList

/-- Whether a text starts with another one, and the rest if it does. -/
def afterStart? : List Char → List Char → Option (List Char)
  | [], cs => some cs
  | _ :: _, [] => none
  | s :: ss, c :: cs => if s = c then afterStart? ss cs else none

/-- Whether a text ends with another one, and what stands before it if it does. -/
def beforeEnd? (ending cs : List Char) : Option (List Char) :=
  (afterStart? ending.reverse cs.reverse).map List.reverse

/-- What stands before the first occurrence of one text in another. -/
def beforeFirst? (needle : List Char) : List Char → Option (List Char)
  | [] => if needle = [] then some [] else none
  | c :: cs =>
      if (afterStart? needle (c :: cs)).isSome then some []
      else (beforeFirst? needle cs).map (c :: ·)

/-- Whether one text occurs in another. -/
def occursIn (needle cs : List Char) : Bool := (beforeFirst? needle cs).isSome

@[simp] theorem sameWord_self (a : String) : sameWord a a = true := by simp [sameWord]

theorem sameWord_comm (a b : String) : sameWord a b = sameWord b a := BEq.comm

theorem afterStart?_eq_some_iff {start cs rest : List Char} :
    afterStart? start cs = some rest ↔ cs = start ++ rest := by
  induction start generalizing cs with
  | nil => simp [afterStart?]
  | cons s ss ih =>
      cases cs with
      | nil => simp [afterStart?]
      | cons c cs =>
          simp only [afterStart?, List.cons_append, List.cons.injEq]
          split
          · next h => subst h; simp [ih]
          · next h => simp [eq_comm, h]

theorem beforeEnd?_eq_some_iff {ending cs before : List Char} :
    beforeEnd? ending cs = some before ↔ cs = before ++ ending := by
  simp only [beforeEnd?, Option.map_eq_some_iff, afterStart?_eq_some_iff]
  constructor
  · rintro ⟨rest, h, rfl⟩
    rw [← List.reverse_inj, h]
    simp
  · rintro rfl
    exact ⟨before.reverse, by simp, by simp⟩

end Tabular.Text
