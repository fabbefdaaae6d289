import Tabular.Toml.Value

/-!
# Writing settings documents

The text of a table: first its own keys, then each table in it under a header, with an
empty line in front. An array of two items or more has a line for each.

A string is written in the first of four forms that needs no escape: on one line between
double quotes, on one line between single quotes, between three double quotes, or between
three single quotes. Where every form needs one, it stands between double quotes.
-/

namespace Tabular.Toml.Writer

/-- The forms of a string. -/
inductive StringForm where
  | basic
  | literal
  | basicLines
  | literalLines
  deriving DecidableEq, Repr

/-- The quotes around a string. -/
def StringForm.quotes : StringForm → String
  | basic => "\""
  | literal => "'"
  | basicLines => "\"\"\""
  | literalLines => "'''"

/-- Whether a string may go on over several lines. -/
def StringForm.overLines : StringForm → Bool
  | basic | literal => false
  | basicLines | literalLines => true

/-- The length of the longest run of a quote in a text, given the run that ends before
it. -/
def longestRun (quote : Char) (run : Nat) : List Char → Nat
  | [] => run
  | c :: rest =>
      if c = quote then longestRun quote (run + 1) rest
      else max run (longestRun quote 0 rest)

/-- Whether a character can stand in no string as it is. -/
def needsCode (c : Char) : Bool :=
  c ≠ '\t' && c ≠ '\n' && (c.toNat < 32 || c.toNat = 127)

/-- The form in which a string is written. -/
def StringForm.of (cs : List Char) : StringForm :=
  let plain := !cs.any needsCode
  let onOneLine := !cs.contains '\n'
  let unescaped := plain && !cs.contains '\\'
  let singles := longestRun '\'' 0 cs
  let doubles := longestRun '"' 0 cs
  if unescaped && onOneLine && doubles == 0 then basic
  else if plain && onOneLine && singles == 0 then literal
  else if unescaped && doubles ≤ 2 then basicLines
  else if plain && singles ≤ 2 then literalLines
  else if onOneLine then basic
  else basicLines

/-- The digit of a number below sixteen. -/
def hexDigit (n : Nat) : Char :=
  if n < 10 then Char.ofNat ('0'.toNat + n) else Char.ofNat ('A'.toNat + (n - 10))

/-- One character between double quotes, other than a double quote. -/
def escapeChar (overLines : Bool) (c : Char) : List Char :=
  if c = '\\' then ['\\', '\\']
  else if c = '\t' then ['\\', 't']
  else if c = '\n' then if overLines then ['\n'] else ['\\', 'n']
  else if c = '\r' then ['\\', 'r']
  else if c.toNat = 8 then ['\\', 'b']
  else if c.toNat = 12 then ['\\', 'f']
  else if c.toNat < 32 || c.toNat = 127 then
    ['\\', 'u', '0', '0', hexDigit (c.toNat / 16), hexDigit (c.toNat % 16)]
  else [c]

/-- A text between double quotes, where so many of them in a row may still stand as they
are. Over several lines that is two at a time, and each third one is escaped. -/
def escaped (overLines : Bool) (allowed : Nat) : List Char → List Char
  | [] => []
  | c :: rest =>
      let atOnce := if overLines then 2 else 0
      if c = '"' then
        match allowed with
        | 0 => '\\' :: '"' :: escaped overLines atOnce rest
        | allowed + 1 => '"' :: escaped overLines allowed rest
      else escapeChar overLines c ++ escaped overLines atOnce rest

/-- A string. A line break right behind the opening quotes is not part of it. -/
def string (s : String) : String :=
  let cs := s.toList
  let form := StringForm.of cs
  let start := if form.overLines && cs.contains '\n' then "\n" else ""
  let body :=
    match form with
    | .literal | .literalLines => s
    | .basic => String.ofList (escaped false 0 cs)
    | .basicLines => String.ofList (escaped true 2 cs)
  form.quotes ++ start ++ body ++ form.quotes

/-- A value that is neither a table nor an array. -/
def scalar : Value → String
  | .string s => string s
  | .integer n => toString n
  | .boolean b => if b then "true" else "false"
  | _ => ""

/-- A value on the right of a key. -/
def value : Value → String
  | .array [] => "[]"
  | .array [v] => "[" ++ scalar v ++ "]"
  | .array vs => "[\n" ++ String.join (vs.map fun v => "    " ++ scalar v ++ ",\n") ++ "]"
  | v => scalar v

/-- The lines of the keys of a table that are not tables. -/
def keyLines (t : Table) : String :=
  String.join (t.map fun (k, v) =>
    match v with
    | .table _ _ => ""
    | v => k ++ " = " ++ value v ++ "\n")

/-- The sections of the tables in a table. -/
def sections (t : Table) : String :=
  String.join (t.map fun (k, v) =>
    match v with
    | .table _ u => "\n[" ++ k ++ "]\n" ++ keyLines u
    | _ => "")

end Writer

/-- The document of a table whose tables hold no further ones. -/
def write (t : Table) : String := Writer.keyLines t ++ Writer.sections t

end Tabular.Toml
