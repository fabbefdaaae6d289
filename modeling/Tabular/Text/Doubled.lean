/-!
# Marks written twice

A name that stands between marks may hold the closing mark itself, which is then written
twice. `double` writes a name so, `halve` undoes it on a name that is already cut out,
and `readUntil?` cuts it out of a text: it goes on up to the first closing mark that is
not one of two in a row. Marks are paired from left to right.
-/

namespace Tabular.Text

/-- A text with each mark written twice. -/
def double (mark : Char) (cs : List Char) : List Char :=
  cs.flatMap fun c => if c = mark then [mark, mark] else [c]

/-- A text with each two marks in a row made one. -/
def halve (mark : Char) : List Char → List Char
  | c :: d :: rest =>
      if c = mark ∧ d = mark then mark :: halve mark rest else c :: halve mark (d :: rest)
  | cs => cs

/-- Reads a name up to its closing mark: the name, and what follows the mark. -/
def readUntil? (mark : Char) : List Char → Option (List Char × List Char)
  | [] => none
  | [c] => if c = mark then some ([], []) else none
  | c :: d :: rest =>
      if c = mark then
        if d = mark then
          (readUntil? mark rest).map fun (name, after) => (mark :: name, after)
        else some ([], d :: rest)
      else (readUntil? mark (d :: rest)).map fun (name, after) => (c :: name, after)

/-- What follows a name is shorter than the text it was cut out of. -/
theorem length_readUntil? {mark : Char} {cs name rest : List Char}
    (h : readUntil? mark cs = some (name, rest)) : rest.length < cs.length := by
  fun_induction readUntil? mark cs generalizing name rest <;> grind [Option.map_eq_some_iff]

@[simp] theorem double_nil (mark : Char) : double mark [] = [] := rfl

theorem double_cons (mark c : Char) (cs : List Char) :
    double mark (c :: cs) = (if c = mark then [mark, mark] else [c]) ++ double mark cs := rfl

theorem halve_cons_of_ne {mark c : Char} (h : c ≠ mark) (rest : List Char) :
    halve mark (c :: rest) = c :: halve mark rest := by
  cases rest <;> simp [halve, h]

/-- Making marks single again undoes writing them twice. -/
theorem halve_double (mark : Char) (cs : List Char) : halve mark (double mark cs) = cs := by
  induction cs with
  | nil => rfl
  | cons c rest ih =>
      by_cases h : c = mark
      · subst h; simp [double_cons, halve, ih]
      · simp [double_cons, h, halve_cons_of_ne h, ih]

theorem readUntil?_cons_of_ne {mark c : Char} (h : c ≠ mark) (rest : List Char) :
    readUntil? mark (c :: rest) =
      (readUntil? mark rest).map fun (name, after) => (c :: name, after) := by
  cases rest <;> simp [readUntil?, h]

theorem readUntil?_cons_self {mark : Char} {rest : List Char} (h : rest.head? ≠ some mark) :
    readUntil? mark (mark :: rest) = some ([], rest) := by
  cases rest with
  | nil => simp [readUntil?]
  | cons d rest =>
      have hd : d ≠ mark := fun heq => h (by rw [heq]; rfl)
      simp [readUntil?, hd]

/-- A name that was written with its marks doubled is read back, and the reading ends
where the name ended, as long as no further mark follows there. -/
theorem readUntil?_double {mark : Char} {rest : List Char} (h : rest.head? ≠ some mark)
    (name : List Char) :
    readUntil? mark (double mark name ++ mark :: rest) = some (name, rest) := by
  induction name with
  | nil => exact readUntil?_cons_self h
  | cons c name ih =>
      by_cases hc : c = mark
      · subst hc
        simp [double_cons, readUntil?, ih]
      · simp [double_cons, hc, readUntil?_cons_of_ne hc, ih]

end Tabular.Text
