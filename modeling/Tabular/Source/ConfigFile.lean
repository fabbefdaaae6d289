import Tabular.Config
import Tabular.Storage.FileTree
import Tabular.Toml.Reader
import Tabular.Toml.Writer

/-!
# Settings in a file

The folder that holds the settings is the one that relative locations start from. It is
not written into the file, so settings that are read back from another folder differ in
it and in nothing else.
-/

namespace Tabular.Source

open Storage

/-- Why settings could not be loaded or kept. -/
inductive ConfigError where
  | file (cause : FileError)
  /-- The file does not spell settings. -/
  | invalid
  deriving DecidableEq, Inhabited, Repr

/-- The settings that a text spells. -/
def readConfig (text : String) : Except ConfigError Config :=
  match (Toml.read? text).bind Config.ofTable? with
  | some config => .ok config
  | none => .error .invalid

/-- The settings in the file at a location. -/
def loadConfig (files : FileTree) (location : String) : Except ConfigError Config :=
  match files.readTextAt location with
  | .error cause => .error (.file cause)
  | .ok text =>
      (readConfig text).map fun config =>
        { config with projectRoot := parentLocation location }

/-- The text of settings. -/
def configText (config : Config) : String := Toml.write config.toTable

/-- Writes settings to the file at a location. -/
def saveConfig (files : FileTree) (location : String) (config : Config) :
    Except ConfigError FileTree :=
  match files.writeTextAt location (configText config) with
  | .error cause => .error (.file cause)
  | .ok files => .ok files

/-- Whether two settings are the same, with the folder that they start from. -/
def sameConfig (a b : Config) : Bool :=
  sameLocation a.projectRoot b.projectRoot && { a with projectRoot := b.projectRoot } == b

end Tabular.Source
