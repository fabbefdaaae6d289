/-!
# Comments and strings in a formula

A formula holds names in quotes and brackets, string literals, and comments of two
kinds. Which of these a character belongs to is its `Role`, and `step` finds it from the
place the reading has come to and the one character that follows. Inside quotes and
brackets a closing mark written twice is no end, and what opens there never opens
anything else.

Removing comments, and emptying strings as well, only puts blanks in the place of
characters of some roles. Both therefore keep the number of characters and the lines of
a formula by construction.
-/

namespace Tabular.Formula

/-- Where the reading of a formula stands before a character. -/
inductive Place where
  /-- Outside of names, strings and comments. -/
  | code
  /-- Inside a name or a string that ends at a mark. -/
  | within (close : Char)
  /-- At the second of two closing marks that stand for one. -/
  | doubled (close : Char)
  /-- At the star that opens a comment. -/
  | opening
  /-- Inside a comment that ends at a star and a slash. -/
  | block
  /-- At the slash that ends a comment. -/
  | closing
  /-- Inside a comment that ends with its line. -/
  | line
  deriving DecidableEq, Inhabited, Repr

/-- What a character of a formula belongs to. -/
inductive Role where
  /-- Code, and the marks and names in it. -/
  | code
  /-- The inside of a string literal. -/
  | text
  | comment
  deriving DecidableEq, Inhabited, Repr

namespace Place

/-- What the inside of a name or a string is: only a string is text. -/
def inside (close : Char) : Role := if close = '"' then .text else .code

/-- The role of a character and the place after it, given the character that follows. -/
def step (place : Place) (c : Char) (following : Option Char) : Role × Place :=
  match place with
  | code =>
      if c = '"' then (.code, within '"')
      else if c = '\'' then (.code, within '\'')
      else if c = '[' then (.code, within ']')
      else if c = '/' ∧ following = some '*' then (.comment, opening)
      else if (c = '/' ∨ c = '-') ∧ following = some c then (.comment, line)
      else (.code, code)
  | within close =>
      if c = close then
        if following = some close then (inside close, doubled close) else (.code, code)
      else (inside close, within close)
  | doubled close => (inside close, within close)
  | opening => (.comment, block)
  | block =>
      if c = '*' ∧ following = some '/' then (.comment, closing) else (.comment, block)
  | closing => (.comment, code)
  | line => if c = '\n' then (.comment, code) else (.comment, line)

/-- The place after a text that is followed by some character, or by none. -/
def after (place : Place) (following : Option Char) : List Char → Place
  | [] => place
  | c :: rest => after (place.step c (rest.head?.or following)).2 following rest

end Place

/-- The characters of a text with their roles, given the character behind the text. -/
def roles (place : Place) (following : Option Char) : List Char → List (Role × Char)
  | [] => []
  | c :: rest =>
      let (role, place) := place.step c (rest.head?.or following)
      (role, c) :: roles place following rest

/-- A blank, or the line feed that must stay one. -/
def blanked (c : Char) : Char := if c = '\n' then c else ' '

/-- A formula with the characters of some roles blanked. -/
def blankRoles (hidden : Role → Bool) (formula : List Char) : List Char :=
  (roles .code none formula).map fun (role, c) => if hidden role then blanked c else c

/-- A formula without its comments. -/
def withoutComments (formula : String) : String :=
  String.ofList (blankRoles (· == .comment) formula.toList)

/-- A formula without its comments and with its strings emptied: what is left are the
names and the code around them. -/
def codeOnly (formula : List Char) : List Char := blankRoles (· != .code) formula

@[simp] theorem map_snd_roles (place : Place) (following : Option Char) (cs : List Char) :
    (roles place following cs).map (·.2) = cs := by
  induction cs generalizing place with
  | nil => rfl
  | cons c rest ih => simp [roles, ih]

@[simp] theorem length_roles (place : Place) (following : Option Char) (cs : List Char) :
    (roles place following cs).length = cs.length := by
  induction cs generalizing place with
  | nil => rfl
  | cons c rest ih => simp [roles, ih]

/-- The reading of two texts in a row is that of the first, and that of the second from
the place where the first one left off. -/
theorem roles_append (place : Place) (following : Option Char) (a b : List Char) :
    roles place following (a ++ b) =
      roles place (b.head?.or following) a
        ++ roles (place.after (b.head?.or following) a) following b := by
  induction a generalizing place with
  | nil => rfl
  | cons c rest ih =>
      simp [roles, Place.after, ih, List.head?_append, Option.or_assoc]

theorem Place.after_append (place : Place) (following : Option Char) (a b : List Char) :
    place.after following (a ++ b) =
      (place.after (b.head?.or following) a).after following b := by
  induction a generalizing place with
  | nil => rfl
  | cons c rest ih => simp [Place.after, ih, List.head?_append, Option.or_assoc]

/-- Blanking keeps the number of characters. -/
@[simp] theorem length_blankRoles (hidden : Role → Bool) (formula : List Char) :
    (blankRoles hidden formula).length = formula.length := by simp [blankRoles]

end Tabular.Formula
