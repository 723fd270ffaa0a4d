import AutoImport.Files.Tree
import AutoImport.Settings.Toml
import AutoImport.Text.Quoted

/-!
# The settings file

A workspace keeps its settings in a file in a directory of its own. A workspace without that file has
the standard settings.
-/

namespace AutoImport

open Text

/-- Why settings could not be loaded or saved. -/
inductive SettingsError where
  | unreadable (file : Path)
  | malformed (file : Path)
  | directoryMissing (directory : Path)
  | numberTooLarge
  | unwritable (file : Path)
  deriving DecidableEq, Repr

namespace SettingsError

def message : SettingsError → String
  | .unreadable file => "Failed to read config from " ++ quoted file.spelling
  | .malformed file => "Failed to parse config from " ++ quoted file.spelling
  | .directoryMissing directory =>
    "Failed to create config directory " ++ quoted directory.spelling
  | .numberTooLarge => "Failed to serialize config"
  | .unwritable file => "Failed to write config to " ++ quoted file.spelling

end SettingsError

namespace Settings

/-- The directory that holds what belongs to the settings of a workspace. -/
def directoryName : String := ".tsimport"

def directoryIn (root : Path) : Path :=
  root.join ⟨directoryName⟩

def fileIn (root : Path) : Path :=
  (directoryIn root).join ⟨"config.toml"⟩

def isInitialized (tree : FileTree) (root : Path) : Bool :=
  tree.hasEntry (fileIn root)

def load (tree : FileTree) (root : Path) : Except SettingsError Settings :=
  let file := fileIn root
  if isInitialized tree root then
    match (tree.content? file).bind FileContent.text? with
    | none => .error (.unreadable file)
    | some text =>
      match ofText? text with
      | none => .error (.malformed file)
      | some settings => .ok settings
  else .ok standard

/-- Whether a directory exists or can be made: nothing else may be in its place. -/
def canMakeDirectory (tree : FileTree) (directory : Path) : Bool :=
  tree.isDirectory directory || ((tree.entryLocation? directory).bind tree.node?).isNone

/-- Saves the settings of a workspace, and gives the files after that. The directory is made even when
the settings cannot be written. -/
def save (settings : Settings) (tree : FileTree) (root : Path) :
    Except SettingsError Unit × FileTree :=
  let directory := directoryIn root
  let file := fileIn root
  if !canMakeDirectory tree directory then (.error (.directoryMissing directory), tree)
  else
    let tree := tree.makeDirectory directory
    -- Writing starts only now, so the directory stays behind when it fails.
    match settings.toText? with
    | none => (.error .numberTooLarge, tree)
    | some text =>
      if tree.isDirectory file then (.error (.unwritable file), tree)
      else (.ok (), tree.write file (.text text))

end Settings

end AutoImport
