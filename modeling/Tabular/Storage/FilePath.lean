/-!
# Paths

A location is text with slashes between names, and is shown as it was given. The path it
stands for is the list of the names: empty names and single dots say nothing, and two
dots take back the name before them. Paths are in order name by name, so a folder stands
directly before what it holds.
-/

namespace Tabular.Storage

/-- The names on the way from the top to a file or folder. -/
abbrev FilePath := List String

namespace FilePath

/-- Whether a step of a location is a name, and not a gap or dots. -/
def isPlain (name : String) : Bool := name ≠ "" && name ≠ "." && name ≠ ".."

/-- Goes on from a path by one step. -/
def step (p : FilePath) (name : String) : FilePath :=
  if name = "" ∨ name = "." then p
  else if name = ".." then p.dropLast
  else p ++ [name]

/-- The path that a location stands for, whatever stands on the way. -/
def ofLocation (location : String) : FilePath := (location.splitOn "/").foldl step []

/-- A path as text. -/
def text (p : FilePath) : String := "/".intercalate p

/-- A path as diagnostics name it, with slashes only. -/
def label (p : FilePath) : String := p.text.map fun c => if c = '\\' then '/' else c

end FilePath

/-- A location as seen from another one. One that starts at the top is kept. -/
def joinLocation (base location : String) : String :=
  if location.startsWith "/" ∨ base = "" then location
  else if base.endsWith "/" then base ++ location
  else base ++ "/" ++ location

/-- Whether a step of a location says nothing. -/
def isSilent (step : String) : Bool := step = "" || step = "."

/-- The location of the folder that holds another location. -/
def parentLocation (location : String) : String :=
  let names := ((location.splitOn "/").reverse.dropWhile isSilent).drop 1
  "/".intercalate (names.dropWhile isSilent).reverse

/-- Whether two locations say the same, step by step. Two dots are a step like others,
since what they lead back from need not be there. -/
def sameLocation (a b : String) : Bool :=
  let steps (location : String) := (location.splitOn "/").filter (!isSilent ·)
  a.startsWith "/" == b.startsWith "/" && steps a == steps b

end Tabular.Storage
