import Tabular.Json.Value

/-!
# Writing JSON text

Two layouts of the same tokens. The compact one has no blanks and is what
fingerprints are taken of; the indented one gives every item and member a line of its
own and keeps empty arrays and objects on one. Members are written in the order in
which the value holds them, and only what JSON cannot hold raw is escaped.
-/

namespace Tabular.Json

namespace Writer

/-- The digit of a number below sixteen. -/
def hexDigit (n : Nat) : Char :=
  if n < 10 then Char.ofNat ('0'.toNat + n) else Char.ofNat ('a'.toNat + (n - 10))

/-- One character inside a string. -/
def escapeChar (c : Char) : List Char :=
  if c = '"' then ['\\', '"']
  else if c = '\\' then ['\\', '\\']
  else if c.toNat ≥ 32 then [c]
  else if c = '\n' then ['\\', 'n']
  else if c = '\r' then ['\\', 'r']
  else if c = '\t' then ['\\', 't']
  else if c.toNat = 8 then ['\\', 'b']
  else if c.toNat = 12 then ['\\', 'f']
  else ['\\', 'u', '0', '0', hexDigit (c.toNat / 16), hexDigit (c.toNat % 16)]

/-- A string between quotes. -/
def string (s : String) : String :=
  String.ofList ('"' :: (s.toList.flatMap escapeChar ++ ['"']))

/-- A new line with blanks up to a level of nesting. -/
def newLine (level : Nat) : String :=
  String.ofList ('\n' :: List.replicate (2 * level) ' ')

/-- The text of a value that holds no others; a part that names no value is written as
no value. -/
def scalar : Value → String
  | .bool true => "true"
  | .bool false => "false"
  | .int n => toString n
  | .decimal m e => toString m ++ "e" ++ toString e
  | .str s => string s
  | _ => "null"

mutual

/-- The text of a value without blanks. -/
def compact : Value → String
  | .arr vs => "[" ++ compactItems vs ++ "]"
  | .obj ms => "\x7b" ++ compactMembers ms ++ "\x7d"
  | v => scalar v

/-- The items of an array, with commas between them. -/
def compactItems : List Value → String
  | [] => ""
  | [v] => compact v
  | v :: rest => compact v ++ "," ++ compactItems rest

/-- The members of an object, with commas between them. -/
def compactMembers : List (String × Value) → String
  | [] => ""
  | [(k, v)] => string k ++ ":" ++ compact v
  | (k, v) :: rest => string k ++ ":" ++ compact v ++ "," ++ compactMembers rest

end

mutual

/-- The text of a value with a line for each part of it. -/
def indented (level : Nat) : Value → String
  | .arr [] => "[]"
  | .obj [] => "\x7b\x7d"
  | .arr vs => "[" ++ indentedItems (level + 1) vs ++ newLine level ++ "]"
  | .obj ms => "\x7b" ++ indentedMembers (level + 1) ms ++ newLine level ++ "\x7d"
  | v => scalar v

/-- The items of an array, each on a new line. -/
def indentedItems (level : Nat) : List Value → String
  | [] => ""
  | [v] => newLine level ++ indented level v
  | v :: rest => newLine level ++ indented level v ++ "," ++ indentedItems level rest

/-- The members of an object, each on a new line. -/
def indentedMembers (level : Nat) : List (String × Value) → String
  | [] => ""
  | [(k, v)] => newLine level ++ string k ++ ": " ++ indented level v
  | (k, v) :: rest =>
      newLine level ++ string k ++ ": " ++ indented level v ++ "," ++
        indentedMembers level rest

end

end Writer

/-- The text of a value without blanks. -/
def Value.compact (v : Value) : String := Writer.compact v

/-- The text of a value, indented by two blanks a level. -/
def Value.indented (v : Value) : String := Writer.indented 0 v

end Tabular.Json
