/-
  Sluice.Config.Files

  Configurations in files.
-/

import Sluice.Config.Text
import Sluice.Folder

namespace Sluice.Config

/-- The error of a file operation, in its context. -/
def fileError (context : String) (e : FileError) : SetupError :=
  .within context (.io e.message)

/-- Load a configuration from a file. -/
def load (folder : Folder) (path : String) : Except SetupError Config :=
  match folder.read path with
  | .error e => .error (fileError s!"Failed to read config {path}" e)
  | .ok text => (ofToml text).mapError (.within s!"Failed to parse config {path}")

/-- Load a configuration; the defaults stand in for one that cannot be loaded. -/
def loadOrDefault (folder : Folder) (path : String) : Config :=
  match load folder path with
  | .ok config => config
  | .error _ => {}

/-- Make the folders that a file is to lie in. A file in the place of the innermost one counts as
there, and writing fails then. -/
def prepare (folder : Folder) (path : String) : Except FileError Unit × Folder :=
  match (Path.ofText path).folders with
  | [] => (.ok (), folder)
  | inner :: above =>
    if folder.contains inner then (.ok (), folder) else folder.makeFolders (inner :: above)

/-- Save a configuration. Missing folders are made, even if the configuration cannot be written
afterwards. -/
def save (config : Config) (folder : Folder) (path : String) : Except SetupError Unit × Folder :=
  match prepare folder path with
  | (.error e, folder) => (.error (fileError "Failed to create config directory" e), folder)
  | (.ok _, folder) =>
    match config.toToml with
    | .error e => (.error e, folder)
    | .ok text =>
      match folder.write path text with
      | .error e => (.error (fileError s!"Failed to write config {path}" e), folder)
      | .ok folder => (.ok (), folder)

end Sluice.Config
