import Tabular.Json.Value

/-!
# Reading JSON text

A reader takes a text and gives what it found together with the rest. The grammar is
the strict one: no comments, no trailing commas, no leading zeros, no raw control
characters, and nothing but blanks after the value.

Arrays and objects nest, so the readers for values, items and members call each
other. Each call is paid for from a budget; every step that goes deeper or further
has taken a character, so twice the length of the text always suffices.
-/

namespace Tabular.Json.Reader

/-- The blanks of JSON. -/
def isSpace (c : Char) : Bool := c = ' ' || c = '\t' || c = '\n' || c = '\r'

/-- A text without the blanks it starts with. -/
def skipSpace (cs : List Char) : List Char := cs.dropWhile isSpace

/-- The value of a hexadecimal digit. -/
def hexDigit? (c : Char) : Option Nat :=
  if c.isDigit then some (c.toNat - '0'.toNat)
  else if 'a' ≤ c ∧ c ≤ 'f' then some (c.toNat - 'a'.toNat + 10)
  else if 'A' ≤ c ∧ c ≤ 'F' then some (c.toNat - 'A'.toNat + 10)
  else none

/-- The code that four hexadecimal digits spell. -/
def hexCode? (a b c d : Char) : Option Nat := do
  return (((← hexDigit? a) * 16 + (← hexDigit? b)) * 16 + (← hexDigit? c)) * 16
    + (← hexDigit? d)

/-- The character of a one-letter escape. -/
def shortEscape? : Char → Option Char
  | '"' => some '"'
  | '\\' => some '\\'
  | '/' => some '/'
  | 'b' => some (Char.ofNat 8)
  | 'f' => some (Char.ofNat 12)
  | 'n' => some '\n'
  | 'r' => some '\r'
  | 't' => some '\t'
  | _ => none

/-- Whether a code is the first half of a surrogate pair. -/
def isHighSurrogate (n : Nat) : Bool := 0xD800 ≤ n && n < 0xDC00

/-- Whether a code is the second half of a surrogate pair. -/
def isLowSurrogate (n : Nat) : Bool := 0xDC00 ≤ n && n < 0xE000

/-- The character that two halves of a surrogate pair spell. -/
def joinSurrogates (high low : Nat) : Char :=
  Char.ofNat (0x10000 + (high - 0xD800) * 0x400 + (low - 0xDC00))

/-- Reads a string after its opening quote, with what was read so far held last
character first. The answer says whether the string is readable: half of a surrogate
pair on its own makes it unreadable. -/
def stringBody (readable : Bool) (soFar : List Char) :
    List Char → Option ((Bool × List Char) × List Char)
  | [] => none
  | '"' :: rest => some ((readable, soFar.reverse), rest)
  | '\\' :: 'u' :: a :: b :: c :: d :: '\\' :: 'u' :: e :: f :: g :: h :: rest =>
      match hexCode? a b c d, hexCode? e f g h with
      | some high, some low =>
          if isHighSurrogate high && isLowSurrogate low then
            stringBody readable (joinSurrogates high low :: soFar) rest
          else if isHighSurrogate high || isLowSurrogate high then
            stringBody false soFar ('\\' :: 'u' :: e :: f :: g :: h :: rest)
          else
            stringBody readable (Char.ofNat high :: soFar)
              ('\\' :: 'u' :: e :: f :: g :: h :: rest)
      | _, _ => none
  | '\\' :: 'u' :: a :: b :: c :: d :: rest =>
      match hexCode? a b c d with
      | some code =>
          if isHighSurrogate code || isLowSurrogate code then stringBody false soFar rest
          else stringBody readable (Char.ofNat code :: soFar) rest
      | none => none
  | '\\' :: c :: rest =>
      match shortEscape? c with
      | some e => stringBody readable (e :: soFar) rest
      | none => none
  | c :: rest => if c.toNat < 32 || c = '\\' then none
      else stringBody readable (c :: soFar) rest

/-- The number that decimal digits spell. -/
def digitsValue (cs : List Char) : Nat :=
  cs.foldl (fun n c => n * 10 + (c.toNat - '0'.toNat)) 0

/-- Reads one digit or more. -/
def digits1? (cs : List Char) : Option (List Char × List Char) :=
  match cs.takeWhile Char.isDigit with
  | [] => none
  | ds => some (ds, cs.dropWhile Char.isDigit)

/-- Reads the whole part of a number: a zero alone, or digits that start with none. -/
def wholePart? : List Char → Option (List Char × List Char)
  | '0' :: rest => some (['0'], rest)
  | cs => digits1? cs

/-- Reads the exponent of a number, if there is one. -/
def exponent? : List Char → Option (Option Int × List Char)
  | c :: rest =>
      if c = 'e' || c = 'E' then
        match rest with
        | '-' :: ds => (digits1? ds).map fun (ds, r) => (some (-(digitsValue ds : Int)), r)
        | '+' :: ds => (digits1? ds).map fun (ds, r) => (some (digitsValue ds : Int), r)
        | ds => (digits1? ds).map fun (ds, r) => (some (digitsValue ds : Int), r)
      else some (none, c :: rest)
  | [] => some (none, [])

/-- Reads the fraction of a number, if there is one. -/
def fraction? : List Char → Option (Option (List Char) × List Char)
  | '.' :: rest => (digits1? rest).map fun (ds, r) => (some ds, r)
  | cs => some (none, cs)

/-- Reads a number. A negative zero is no whole number. -/
def number? (cs : List Char) : Option (Value × List Char) := do
  let (negative, cs) := match cs with
    | '-' :: rest => (true, rest)
    | _ => (false, cs)
  let (whole, cs) ← wholePart? cs
  let (fraction, cs) ← fraction? cs
  let (exponent, cs) ← exponent? cs
  let signed (n : Nat) : Int := if negative then -(n : Int) else n
  match fraction, exponent with
  | none, none =>
      let n := digitsValue whole
      return (if negative && n == 0 then .decimal 0 0 else .int (signed n), cs)
  | _, _ =>
      let places := fraction.getD []
      return (.decimal (signed (digitsValue (whole ++ places)))
        (exponent.getD 0 - (places.length : Int)), cs)

/-- What follows a fixed word at the start of a text. -/
def afterWord? : List Char → List Char → Option (List Char)
  | [], cs => some cs
  | w :: ws, c :: cs => if w = c then afterWord? ws cs else none
  | _ :: _, [] => none

mutual

/-- Reads one value and the blanks in front of it. -/
def value? : Nat → List Char → Option (Value × List Char)
  | 0, _ => none
  | fuel + 1, cs =>
      match skipSpace cs with
      | [] => none
      | '"' :: rest =>
          (stringBody true [] rest).map fun ((readable, s), rest) =>
            (if readable then .str (String.ofList s) else .unreadable, rest)
      | '[' :: rest =>
          match skipSpace rest with
          | ']' :: rest => some (.arr [], rest)
          | _ => (items? fuel [] rest).map fun (vs, rest) => (.arr vs, rest)
      | '{' :: rest =>
          match skipSpace rest with
          | '}' :: rest => some (.obj [], rest)
          | _ => members? fuel true [] rest
      | 'n' :: rest => (afterWord? ['u', 'l', 'l'] rest).map (.null, ·)
      | 't' :: rest => (afterWord? ['r', 'u', 'e'] rest).map (.bool true, ·)
      | 'f' :: rest => (afterWord? ['a', 'l', 's', 'e'] rest).map (.bool false, ·)
      | cs => number? cs

/-- Reads the items of an array up to its end, those so far held last first. -/
def items? : Nat → List Value → List Char → Option (List Value × List Char)
  | 0, _, _ => none
  | fuel + 1, soFar, cs =>
      match value? fuel cs with
      | none => none
      | some (v, rest) =>
          match skipSpace rest with
          | ',' :: rest => items? fuel (v :: soFar) rest
          | ']' :: rest => some ((v :: soFar).reverse, rest)
          | _ => none

/-- Reads the members of an object up to its end, those so far held last first. An
object with an unreadable key is unreadable as a whole. -/
def members? : Nat → Bool → List (String × Value) → List Char → Option (Value × List Char)
  | 0, _, _, _ => none
  | fuel + 1, readable, soFar, cs =>
      match skipSpace cs with
      | '"' :: rest =>
          match stringBody true [] rest with
          | none => none
          | some ((keyReadable, key), rest) =>
              match skipSpace rest with
              | ':' :: rest =>
                  match value? fuel rest with
                  | none => none
                  | some (v, rest) =>
                      let readable := readable && keyReadable
                      let soFar := (String.ofList key, v) :: soFar
                      match skipSpace rest with
                      | ',' :: rest => members? fuel readable soFar rest
                      | '}' :: rest =>
                          some (if readable then .obj soFar.reverse else .unreadable, rest)
                      | _ => none
              | _ => none
      | _ => none

end

end Reader

/-- The value that a text spells, as it is written: a key may occur twice, and parts that
name no value are still there. -/
def read? (text : String) : Option Value :=
  let cs := text.toList
  match Reader.value? (2 * cs.length + 2) cs with
  | some (v, rest) => if (Reader.skipSpace rest).isEmpty then some v else none
  | none => none

/-- How deep arrays and objects may nest in a document. -/
def documentDepth : Nat := 127

/-- The document that a text holds, every part of which can be read. -/
def document? (text : String) : Option Value := (read? text).bind (Value.settle documentDepth)

end Tabular.Json
