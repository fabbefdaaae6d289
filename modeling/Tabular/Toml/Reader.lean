import Tabular.Decimal
import Tabular.Toml.Value

/-!
# Reading settings documents

A document is read line by line: a header that opens a table, or a key and its value,
which may go on over several lines. Each reader takes a text and gives what it found
together with the rest. Values nest in arrays and inline tables, and the readers for
those are paid for from a budget of twice the length of the text.

The grammar is that of TOML 1.0: bare, quoted and dotted keys, four kinds of strings,
whole numbers to four bases within sixty-four bits, floats, dates and times that exist,
arrays over several lines, and inline tables on one. What it leaves to the reader is
settled so: a key has at most `nesting` parts, arrays and inline tables nest at most as
deep, and a float that rounds to infinity is refused unless it is negative.
-/

namespace Tabular.Toml.Reader

/-- How many parts a key may have, and how deep arrays and inline tables may nest. -/
def nesting : Nat := 79

/-- Blanks within a line. -/
def isSpace (c : Char) : Bool := c = ' ' || c = '\t'

/-- A text without the blanks it starts with. -/
def skipSpace (cs : List Char) : List Char := cs.dropWhile isSpace

/-- Whether a character may stand in a comment or a string as it is. -/
def isPlain (c : Char) : Bool := c = '\t' || (32 ≤ c.toNat && c.toNat ≠ 127)

/-- The rest after a line break. -/
def lineBreak? : List Char → Option (List Char)
  | '\n' :: rest => some rest
  | '\r' :: '\n' :: rest => some rest
  | _ => none

/-- The rest after a comment, if there is one. -/
def skipComment (cs : List Char) : List Char :=
  match cs with
  | '#' :: rest => rest.dropWhile isPlain
  | _ => cs

/-- The rest after what may follow a value or a header on its line. -/
def endOfLine? (cs : List Char) : Option (List Char) :=
  match skipComment (skipSpace cs) with
  | [] => some []
  | cs => lineBreak? cs

/-- A text without the blanks, comments and line breaks it starts with, looking at no
more lines than the budget allows. -/
def skipLines : Nat → List Char → List Char
  | 0, cs => cs
  | fuel + 1, cs =>
      let cs := skipComment (skipSpace cs)
      match lineBreak? cs with
      | some rest => skipLines fuel rest
      | none => cs

/-- The value of a digit to a base up to sixteen. -/
def digit? (base : Nat) (c : Char) : Option Nat :=
  let n :=
    if c.isDigit then c.toNat - '0'.toNat
    else if 'a' ≤ c ∧ c ≤ 'f' then c.toNat - 'a'.toNat + 10
    else if 'A' ≤ c ∧ c ≤ 'F' then c.toNat - 'A'.toNat + 10
    else 16
  if n < base then some n else none

/-- The number that a fixed count of digits spells. -/
def fixedDigits? (base : Nat) : Nat → Nat → List Char → Option (Nat × List Char)
  | 0, n, cs => some (n, cs)
  | count + 1, n, c :: cs =>
      match digit? base c with
      | some d => fixedDigits? base count (n * base + d) cs
      | none => none
  | _ + 1, _, [] => none

/-- The character with a code, unless it is half of a surrogate pair or too large. -/
def scalar? (n : Nat) : Option Char :=
  if h : n.isValidChar then some (Char.ofNatAux n h) else none

/-- The character of a one-letter escape. -/
def shortEscape? : Char → Option Char
  | 'b' => some (Char.ofNat 8)
  | 't' => some '\t'
  | 'n' => some '\n'
  | 'f' => some (Char.ofNat 12)
  | 'r' => some '\r'
  | '"' => some '"'
  | '\\' => some '\\'
  | _ => none

/-- Reads an escape after its backslash. -/
def escape? : List Char → Option (Char × List Char)
  | 'u' :: rest => do
      let (n, rest) ← fixedDigits? 16 4 0 rest
      return (← scalar? n, rest)
  | 'U' :: rest => do
      let (n, rest) ← fixedDigits? 16 8 0 rest
      return (← scalar? n, rest)
  | c :: rest => (shortEscape? c).map (·, rest)
  | [] => none

/-- Reads a string on one line after its opening double quote. -/
def basicString? : Nat → List Char → List Char → Option (String × List Char)
  | 0, _, _ => none
  | fuel + 1, soFar, cs =>
      match cs with
      | [] => none
      | '"' :: rest => some (String.ofList soFar.reverse, rest)
      | '\\' :: rest =>
          match escape? rest with
          | some (c, rest) => basicString? fuel (c :: soFar) rest
          | none => none
      | c :: rest => if isPlain c then basicString? fuel (c :: soFar) rest else none

/-- Reads a string on one line after its opening single quote. -/
def literalString? (soFar : List Char) : List Char → Option (String × List Char)
  | [] => none
  | '\'' :: rest => some (String.ofList soFar.reverse, rest)
  | c :: rest => if isPlain c then literalString? (c :: soFar) rest else none

/-- Reads the closing quotes of a string over several lines, of which up to two more
than three belong to the string. -/
def closing? (quote : Char) (soFar : List Char) (cs : List Char) :
    Option (String × List Char) :=
  let run := (cs.takeWhile (· == quote)).length
  if 3 ≤ run ∧ run ≤ 5 then
    some (String.ofList (soFar.reverse ++ List.replicate (run - 3) quote), cs.drop run)
  else none

/-- A text without the blanks and line breaks it starts with. -/
def skipBlankLines : List Char → List Char
  | '\r' :: '\n' :: rest => skipBlankLines rest
  | c :: rest => if isSpace c || c = '\n' then skipBlankLines rest else c :: rest
  | [] => []

/-- The rest after the blanks and line breaks that a backslash at the end of a line
takes away, or nothing if the line does not end. -/
def continuation? (cs : List Char) : Option (List Char) :=
  (lineBreak? (skipSpace cs)).map skipBlankLines

/-- Reads a string over several lines after its three opening double quotes. -/
def basicLines? : Nat → List Char → List Char → Option (String × List Char)
  | 0, _, _ => none
  | fuel + 1, soFar, cs =>
      match cs with
      | [] => none
      | '"' :: '"' :: '"' :: _ => closing? '"' soFar cs
      | '\\' :: rest =>
          match continuation? rest with
          | some rest => basicLines? fuel soFar rest
          | none =>
              match escape? rest with
              | some (c, rest) => basicLines? fuel (c :: soFar) rest
              | none => none
      | c :: rest =>
          match lineBreak? cs with
          | some rest => basicLines? fuel ('\n' :: soFar) rest
          | none => if isPlain c then basicLines? fuel (c :: soFar) rest else none

/-- Reads a string over several lines after its three opening single quotes. -/
def literalLines? : Nat → List Char → List Char → Option (String × List Char)
  | 0, _, _ => none
  | fuel + 1, soFar, cs =>
      match cs with
      | [] => none
      | '\'' :: '\'' :: '\'' :: _ => closing? '\'' soFar cs
      | c :: rest =>
          match lineBreak? cs with
          | some rest => literalLines? fuel ('\n' :: soFar) rest
          | none => if isPlain c then literalLines? fuel (c :: soFar) rest else none

/-- A text without the line break it starts with. -/
def dropLineBreak (cs : List Char) : List Char := (lineBreak? cs).getD cs

/-- Whether a character may stand in a key without quotes. -/
def isBare (c : Char) : Bool := c.isAlphanum || c = '_' || c = '-'

/-- Reads one part of a key. -/
def simpleKey? : List Char → Option (String × List Char)
  | '"' :: rest => basicString? (rest.length + 1) [] rest
  | '\'' :: rest => literalString? [] rest
  | cs =>
      match cs.takeWhile isBare with
      | [] => none
      | key => some (String.ofList key, cs.dropWhile isBare)

/-- Reads a key of so many parts at most, with those before the last held last first. -/
def key? : Nat → List String → List Char → Option ((List String × String) × List Char)
  | 0, _, _ => none
  | parts + 1, path, cs => do
      let (key, rest) ← simpleKey? (skipSpace cs)
      match skipSpace rest with
      | '.' :: rest => key? parts (key :: path) rest
      | rest => return ((path.reverse, key), rest)

/-- The digits to a base, where an underscore may stand between two of them; the count
of digits, their value and the rest. -/
def digitRun (base : Nat) : Nat → Nat → List Char → (Nat × Nat) × List Char
  | count, n, [] => ((count, n), [])
  | count, n, '_' :: c :: rest =>
      match count, digit? base c with
      | _ + 1, some d => digitRun base (count + 1) (n * base + d) rest
      | _, _ => ((count, n), '_' :: c :: rest)
  | count, n, c :: rest =>
      match digit? base c with
      | some d => digitRun base (count + 1) (n * base + d) rest
      | none => ((count, n), c :: rest)

/-- Reads digits to a base. -/
def digits1? (base : Nat) (cs : List Char) : Option (Nat × List Char) :=
  match digitRun base 0 0 cs with
  | ((0, _), _) => none
  | ((_ + 1, n), rest) => some (n, rest)

/-- Reads the whole part of a number: a zero alone, or digits that start with none. -/
def wholePart? : List Char → Option (Nat × List Char)
  | '0' :: rest => some (0, rest)
  | cs => digits1? 10 cs

/-- A sign and the rest. -/
def sign : List Char → Bool × List Char
  | '-' :: rest => (true, rest)
  | '+' :: rest => (false, rest)
  | cs => (false, cs)

/-- Reads an exponent. -/
def exponent? : List Char → Option (Int × List Char)
  | c :: rest =>
      if c = 'e' || c = 'E' then do
        let (negative, rest) := sign rest
        let (n, rest) ← digits1? 10 rest
        return (if negative then -(n : Int) else n, rest)
      else none
  | [] => none

/-- A float, if it does not round to infinity. -/
def float (negative : Bool) (mantissa : Nat) (exponent : Int) (rest : List Char) :
    Option (Value × List Char) :=
  if !negative && Decimal.beyondDoubles mantissa exponent then none else some (.float, rest)

/-- Reads a float, which has a fraction, an exponent or both. -/
def float? (cs : List Char) : Option (Value × List Char) := do
  let (negative, cs) := sign cs
  let (whole, rest) ← wholePart? cs
  match rest with
  | '.' :: rest =>
      let ((places, n), after) := digitRun 10 0 whole rest
      if places = 0 then none
      let (e, after) := (exponent? after).getD (0, after)
      float negative n (e - (places : Int)) after
  | rest =>
      let (e, after) ← exponent? rest
      float negative whole e after

/-- A whole number, if it fits into sixty-four bits. -/
def integer (n : Int) (rest : List Char) : Option (Value × List Char) :=
  if -9223372036854775808 ≤ n ∧ n ≤ 9223372036854775807 then some (.integer n, rest) else none

/-- Reads a whole number. -/
def integer? : List Char → Option (Value × List Char)
  | '0' :: 'x' :: rest => (digits1? 16 rest).bind fun (n, rest) => integer n rest
  | '0' :: 'o' :: rest => (digits1? 8 rest).bind fun (n, rest) => integer n rest
  | '0' :: 'b' :: rest => (digits1? 2 rest).bind fun (n, rest) => integer n rest
  | cs => do
      let (negative, rest) := sign cs
      let (n, rest) ← wholePart? rest
      integer (if negative then -(n : Int) else n) rest

/-- The days of a month. -/
def daysIn (year month : Nat) : Nat :=
  if month = 2 then
    if year % 4 = 0 ∧ (year % 100 ≠ 0 ∨ year % 400 = 0) then 29 else 28
  else if month = 4 ∨ month = 6 ∨ month = 9 ∨ month = 11 then 30
  else 31

/-- The rest after a given character. -/
def after? (c : Char) : List Char → Option (List Char)
  | d :: rest => if c = d then some rest else none
  | [] => none

/-- The rest after a day that exists. -/
def date? (cs : List Char) : Option (List Char) := do
  let (year, cs) ← fixedDigits? 10 4 0 cs
  let cs ← after? '-' cs
  let (month, cs) ← fixedDigits? 10 2 0 cs
  let cs ← after? '-' cs
  let (day, cs) ← fixedDigits? 10 2 0 cs
  if 1 ≤ month ∧ month ≤ 12 ∧ 1 ≤ day ∧ day ≤ daysIn year month then some cs else none

/-- The rest after a time of day. -/
def time? (cs : List Char) : Option (List Char) := do
  let (hour, cs) ← fixedDigits? 10 2 0 cs
  let cs ← after? ':' cs
  let (minute, cs) ← fixedDigits? 10 2 0 cs
  let cs ← after? ':' cs
  let (second, cs) ← fixedDigits? 10 2 0 cs
  if 23 < hour ∨ 59 < minute ∨ 60 < second then none
  else match cs with
    | '.' :: rest =>
        match rest.takeWhile Char.isDigit with
        | [] => some cs
        | _ => some (rest.dropWhile Char.isDigit)
    | _ => some cs

/-- The rest after an offset from universal time, if there is one. -/
def offset? (cs : List Char) : Option (List Char) :=
  match cs with
  | 'Z' :: rest => some rest
  | 'z' :: rest => some rest
  | c :: rest =>
      if c = '+' || c = '-' then do
        let (hour, rest) ← fixedDigits? 10 2 0 rest
        let rest ← after? ':' rest
        let (minute, rest) ← fixedDigits? 10 2 0 rest
        if hour ≤ 23 ∧ minute ≤ 59 then some rest else none
      else some cs
  | [] => some []

/-- Whether a text starts like a date or a time. -/
def startsDateTime (cs : List Char) : Bool :=
  match cs with
  | a :: b :: ':' :: _ => a.isDigit && b.isDigit
  | a :: b :: c :: d :: '-' :: _ => a.isDigit && b.isDigit && c.isDigit && d.isDigit
  | _ => false

/-- Reads a date, a time, or both with or without an offset. -/
def dateTime? (cs : List Char) : Option (Value × List Char) :=
  match cs with
  | _ :: _ :: ':' :: _ => (time? cs).map (.dateTime, ·)
  | _ =>
      match date? cs with
      | none => none
      | some rest =>
          match rest with
          | separator :: next :: _ =>
              if separator = 'T' || separator = 't' || (separator = ' ' && next.isDigit) then
                ((time? (rest.drop 1)).bind offset?).map (.dateTime, ·)
              else some (.dateTime, rest)
          | _ => some (.dateTime, rest)

/-- The rest after a word. -/
def word? : List Char → List Char → Option (List Char)
  | [], cs => some cs
  | w :: ws, c :: cs => if w = c then word? ws cs else none
  | _ :: _, [] => none

/-- Reads a number, or one of the words for numbers without digits. -/
def number? (cs : List Char) : Option (Value × List Char) :=
  if startsDateTime cs then dateTime? cs
  else match word? ['i', 'n', 'f'] (sign cs).2 with
    | some rest => some (.float, rest)
    | none =>
        match word? ['n', 'a', 'n'] (sign cs).2 with
        | some rest => some (.float, rest)
        | none =>
            match float? cs with
            | some found => some found
            | none => integer? cs

mutual

/-- Reads a value in which arrays and inline tables nest at most `depth` deep. -/
def value? (depth : Nat) : Nat → List Char → Option (Value × List Char)
  | 0, _ => none
  | fuel + 1, cs =>
      match cs with
      | '"' :: '"' :: '"' :: rest =>
          (basicLines? (rest.length + 1) [] (dropLineBreak rest)).map fun (s, rest) =>
            (.string s, rest)
      | '\'' :: '\'' :: '\'' :: rest =>
          (literalLines? (rest.length + 1) [] (dropLineBreak rest)).map fun (s, rest) =>
            (.string s, rest)
      | '"' :: rest =>
          (basicString? (rest.length + 1) [] rest).map fun (s, rest) => (.string s, rest)
      | '\'' :: rest => (literalString? [] rest).map fun (s, rest) => (.string s, rest)
      | '[' :: rest =>
          match depth with
          | 0 => none
          | depth + 1 =>
              (items? depth fuel [] rest).map fun (vs, rest) => (.array vs, rest)
      | '{' :: rest =>
          match depth, skipSpace rest with
          | 0, _ => none
          | _ + 1, '}' :: rest => some (.table .inline [], rest)
          | depth + 1, _ =>
              (pairs? depth fuel [] rest).map fun (t, rest) => (.table .inline t, rest)
      | 't' :: rest => (word? ['r', 'u', 'e'] rest).map (.boolean true, ·)
      | 'f' :: rest => (word? ['a', 'l', 's', 'e'] rest).map (.boolean false, ·)
      | cs => number? cs

/-- Reads the items of an array up to its end, those so far held last first. -/
def items? (depth : Nat) : Nat → List Value → List Char → Option (List Value × List Char)
  | 0, _, _ => none
  | fuel + 1, soFar, cs =>
      match skipLines cs.length cs with
      | ']' :: rest => some (soFar.reverse, rest)
      | cs =>
          match value? depth fuel cs with
          | none => none
          | some (v, rest) =>
              match skipLines rest.length rest with
              | ',' :: rest => items? depth fuel (v :: soFar) rest
              | ']' :: rest => some ((v :: soFar).reverse, rest)
              | _ => none

/-- Reads the pairs of an inline table up to its end. -/
def pairs? (depth : Nat) : Nat → Table → List Char → Option (Table × List Char)
  | 0, _, _ => none
  | fuel + 1, t, cs =>
      match key? nesting [] cs with
      | some ((path, key), '=' :: rest) =>
          match value? depth fuel (skipSpace rest) with
          | none => none
          | some (v, rest) =>
              match t.define? path key v with
              | none => none
              | some t =>
                  match skipSpace rest with
                  | ',' :: rest => pairs? depth fuel t rest
                  | '}' :: rest => some (t, rest)
                  | _ => none
      | _ => none

end

/-- Reads the lines of a document into a table, where `header` is the path of the table
that keys belong to. -/
def lines? : Nat → List String → Table → List Char → Option Table
  | 0, _, _, _ => none
  | fuel + 1, header, t, cs =>
      match skipLines cs.length cs with
      | [] => some t
      | '[' :: '[' :: rest =>
          match key? nesting [] rest with
          | some ((path, key), ']' :: ']' :: rest) => do
              let t ← t.openElement? path key
              lines? fuel (path ++ [key]) t (← endOfLine? rest)
          | _ => none
      | '[' :: rest =>
          match key? nesting [] rest with
          | some ((path, key), ']' :: rest) => do
              let t ← t.open? path key
              lines? fuel (path ++ [key]) t (← endOfLine? rest)
          | _ => none
      | cs =>
          match key? nesting [] cs with
          | some ((path, key), '=' :: rest) => do
              let rest := skipSpace rest
              let (v, rest) ← value? nesting (2 * rest.length + 2) rest
              let t ← t.atHeader? header fun u => u.define? path key v
              lines? fuel header t (← endOfLine? rest)
          | _ => none

end Reader

/-- The table that a document spells. -/
def read? (text : String) : Option Table :=
  let cs := match text.toList with
    | '\uFEFF' :: rest => rest
    | cs => cs
  Reader.lines? (cs.length + 1) [] [] cs

end Tabular.Toml
