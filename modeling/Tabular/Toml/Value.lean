/-!
# Settings documents

The values of a TOML document. A table remembers how it came to be, since that decides
what may still be added to it: a header may take a table that was only implied by a
longer header, dotted keys may add only to tables that dotted keys have made, and an
inline table or a static array is closed.

`Table.define?`, `Table.open?` and `Table.openElement?` are the three things a line of a
document can do, and each refuses what would define a key twice.
-/

namespace Tabular.Toml

/-- How a table came to be. -/
inductive Origin where
  /-- By a header of its own, or as an element of an array of tables. -/
  | header
  /-- By a header for something inside it. -/
  | implied
  /-- By a dotted key. -/
  | dotted
  /-- Between braces. -/
  | inline
  deriving DecidableEq

/-- A TOML value. Floats and dates are known to be well formed and not held further. -/
inductive Value where
  | string (s : String)
  | integer (n : Int)
  | float
  | boolean (b : Bool)
  | dateTime
  | array (items : List Value)
  | table (origin : Origin) (entries : List (String × Value))
  /-- Tables with a header for each; the last is the one that is added to. -/
  | tables (elements : List (List (String × Value)))
  deriving Inhabited

/-- The entries of a table, with distinct keys. -/
abbrev Table := List (String × Value)

namespace Table

/-- The value under a key. -/
def get? (t : Table) (key : String) : Option Value :=
  match t with
  | [] => none
  | (k, v) :: rest => if k = key then some v else get? rest key

/-- The table with a value under a key, in the place of any other. -/
def set (t : Table) (key : String) (v : Value) : Table :=
  match t with
  | [] => [(key, v)]
  | (k, w) :: rest => if k = key then (k, v) :: rest else (k, w) :: set rest key v

/-- Changes the table that a path of header keys leads to, making those that are not
there yet. The last element of an array of tables stands for the array. -/
def atHeader? (t : Table) (path : List String) (change : Table → Option Table) :
    Option Table :=
  match path with
  | [] => change t
  | key :: rest =>
      match get? t key with
      | none => (atHeader? [] rest change).map fun u => set t key (.table .implied u)
      | some (.table .inline _) => none
      | some (.table origin u) =>
          (atHeader? u rest change).map fun u => set t key (.table origin u)
      | some (.tables elements) =>
          match elements.getLast? with
          | none => none
          | some u => (atHeader? u rest change).map fun u =>
              set t key (.tables (elements.dropLast ++ [u]))
      | some _ => none

/-- Gives a value to a dotted key, which must be new. The table that the value goes into
must have been made by dotted keys; on the way there, tables that a header has only
implied and the last element of an array of tables may be passed through as well. -/
def define? (t : Table) (path : List String) (key : String) (v : Value) : Option Table :=
  match path with
  | [] => match get? t key with
      | none => some (set t key v)
      | some _ => none
  | step :: rest =>
      match get? t step with
      | none => (define? [] rest key v).map fun u => set t step (.table .dotted u)
      | some (.table .dotted u) =>
          (define? u rest key v).map fun u => set t step (.table .dotted u)
      | some (.table .implied u) =>
          if rest.isEmpty then none
          else (define? u rest key v).map fun u => set t step (.table .implied u)
      | some (.tables elements) =>
          match elements.getLast? with
          | none => none
          | some u =>
              if rest.isEmpty then none
              else (define? u rest key v).map fun u =>
                set t step (.tables (elements.dropLast ++ [u]))
      | some _ => none

/-- Opens the table of a header, which nothing may have taken before. -/
def open? (t : Table) (path : List String) (key : String) : Option Table :=
  atHeader? t path fun u =>
    match get? u key with
    | none => some (set u key (.table .header []))
    | some (.table .implied w) => some (set u key (.table .header w))
    | some _ => none

/-- Opens one more element of an array of tables. -/
def openElement? (t : Table) (path : List String) (key : String) : Option Table :=
  atHeader? t path fun u =>
    match get? u key with
    | none => some (set u key (.tables [[]]))
    | some (.tables elements) => some (set u key (.tables (elements ++ [[]])))
    | some _ => none

end Table

end Tabular.Toml
