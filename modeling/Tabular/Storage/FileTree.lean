import Tabular.Ordered.SortedMap
import Tabular.Storage.FilePath

/-!
# Files and folders

A tree of files is held as one map from paths to what stands there. In path order a
folder and all that is in it, at any depth, stand together, so a walk over a folder is
the part of the map below its path and needs no sorting.

Reading fails for one of four causes, each with its text.
-/

namespace Tabular.Storage

open Ordered

/-- What stands at a path. -/
inductive Entry where
  | folder
  | file (bytes : ByteArray)
  deriving Inhabited

/-- Why a file cannot be read. -/
inductive FileError where
  | missing
  /-- A file stands where a folder is needed. -/
  | notFolder
  /-- A folder stands where a file is needed. -/
  | isFolder
  /-- The bytes are not UTF-8. -/
  | notText
  deriving DecidableEq, Inhabited, Repr

/-- The text of a cause. -/
def FileError.message : FileError → String
  | .missing => "No such file or directory (os error 2)"
  | .notFolder => "Not a directory (os error 20)"
  | .isFolder => "Is a directory (os error 21)"
  | .notText => "stream did not contain valid UTF-8"

/-- Files and folders by their paths. The top itself is a folder without an entry. -/
structure FileTree where
  entries : SortedMap FilePath Entry := ∅
  deriving Inhabited

namespace FileTree

/-- What stands at a path that goes on from a folder. -/
def statFrom (t : FileTree) (folder : FilePath) : FilePath → Except FileError Entry
  | [] => .ok .folder
  | name :: rest =>
      match t.entries.get? (folder ++ [name]) with
      | none => .error .missing
      | some .folder => t.statFrom (folder ++ [name]) rest
      | some (.file bytes) => if rest.isEmpty then .ok (.file bytes) else .error .notFolder

/-- What stands at a path. -/
def stat (t : FileTree) (p : FilePath) : Except FileError Entry := t.statFrom [] p

/-- Whether there is a folder at a path. -/
def isFolder (t : FileTree) (p : FilePath) : Bool :=
  match t.stat p with
  | .ok .folder => true
  | _ => false

/-- Whether there is a file at a path. -/
def isFile (t : FileTree) (p : FilePath) : Bool :=
  match t.stat p with
  | .ok (.file _) => true
  | _ => false

/-- The text that some bytes are. -/
def textOf (bytes : ByteArray) : Except FileError String :=
  match String.fromUTF8? bytes with
  | some text => .ok text
  | none => .error .notText

/-- The text of the file at a path. -/
def readText (t : FileTree) (p : FilePath) : Except FileError String :=
  match t.stat p with
  | .error cause => .error cause
  | .ok .folder => .error .isFolder
  | .ok (.file bytes) => textOf bytes

/-- Puts a folder at a path, and folders on the way to it, where there are none. -/
def makeFolder (t : FileTree) (p : FilePath) : FileTree :=
  (List.range p.length).foldl
    (fun t n => ⟨t.entries.insertNew (p.take (n + 1)) .folder⟩) t

/-- Puts a file at a path, and folders on the way to it. -/
def putFile (t : FileTree) (p : FilePath) (bytes : ByteArray) : FileTree :=
  ⟨(t.makeFolder p.dropLast).entries.insert p (.file bytes)⟩

/-- Writes text into a file. The folder that holds the file has to be there. -/
def writeText (t : FileTree) (p : FilePath) (text : String) : Except FileError FileTree :=
  match t.stat p, t.stat p.dropLast with
  | .ok .folder, _ => .error .isFolder
  | _, .error cause => .error cause
  | _, .ok (.file _) => .error .notFolder
  | _, .ok .folder => .ok ⟨t.entries.insert p (.file text.toUTF8)⟩

/-- Follows the steps of a location from a folder to the path it leads to. A file can
only be the last step: behind it, not even a step that says nothing may follow. -/
def walk (t : FileTree) (folder : FilePath) : List String → Except FileError FilePath
  | [] => .ok folder
  | name :: rest =>
      if FilePath.isPlain name then
        match t.entries.get? (folder ++ [name]) with
        | none => .error .missing
        | some .folder => t.walk (folder ++ [name]) rest
        | some (.file _) => if rest.isEmpty then .ok (folder ++ [name]) else .error .notFolder
      else t.walk (FilePath.step folder name) rest

/-- The path of what stands at a location. -/
def find (t : FileTree) (location : String) : Except FileError FilePath :=
  t.walk [] (location.splitOn "/")

/-- The path of the folder at a location, if a folder stands there. -/
def folderAt? (t : FileTree) (location : String) : Option FilePath :=
  match t.find location with
  | .ok p => if t.isFolder p then some p else none
  | .error _ => none

/-- The text of the file at a location. -/
def readTextAt (t : FileTree) (location : String) : Except FileError String :=
  match t.find location with
  | .ok p => t.readText p
  | .error cause => .error cause

/-- Writes text into the file at a location, which has to end in the name of the file. -/
def writeTextAt (t : FileTree) (location : String) (text : String) :
    Except FileError FileTree :=
  let steps := location.splitOn "/"
  match t.walk [] steps.dropLast, steps.getLast? with
  | .error cause, _ => .error cause
  | .ok _, none => .error .missing
  | .ok folder, some name =>
      if FilePath.isPlain name then t.writeText (folder ++ [name]) text else .error .isFolder

/-- Takes away what stands at a path, with all that is below it. -/
def remove (t : FileTree) (p : FilePath) : FileTree :=
  ⟨t.entries.filter fun e => !p.isPrefixOf e.1⟩

/-- What stands below a folder at any depth, by the path from there, in path order. -/
def below (t : FileTree) (folder : FilePath) : List (FilePath × Entry) :=
  t.entries.toList.filterMap fun (p, e) =>
    match folder.isPrefixOf? p with
    | some (name :: rest) => some (name :: rest, e)
    | _ => none

/-- The names of the folders that a folder holds, in order. -/
def foldersIn (t : FileTree) (folder : FilePath) : List String :=
  (t.below folder).filterMap fun
    | ([name], .folder) => some name
    | _ => none

end FileTree

end Tabular.Storage
