import AutoImport.Glob.Pattern
import AutoImport.Path.Module
import AutoImport.Settings.Basic

/-!
# Which files are indexed

The patterns of the settings, ready to be compared with paths. A directory of which everything is left
out does not have to be entered.
-/

namespace AutoImport

open Text Glob

/-- Patterns of files to index and to leave out. -/
structure FileFilter where
  including : List Pattern
  excluding : List Pattern
  /-- Directories of which everything is left out. -/
  excludedDirectories : List Pattern
  deriving DecidableEq, Repr, Inhabited

namespace FileFilter

def parseAll : List String → Except String (List Pattern)
  | [] => .ok []
  | text :: texts =>
    match Pattern.parse? text with
    | none => .error text
    | some pattern => (parseAll texts).map (pattern :: ·)

/-- The directories of which patterns of the form `directory/**` leave out everything. -/
def directoriesOf (excluding : List String) : List Pattern :=
  excluding.filterMap fun text =>
    (dropSuffix? ['/', '*', '*'] text.toList).bind fun directory =>
      Pattern.parse? (String.ofList directory)

def ofSettings (settings : ScanSettings) : Except String FileFilter := do
  let including ← parseAll settings.including
  let excluding ← parseAll settings.excluding
  .ok ⟨including, excluding, directoriesOf settings.excluding⟩

/-- Whether a file of the workspace is indexed by its path. -/
def accepts (filter : FileFilter) (path : Path) : Bool :=
  filter.including.any (·.fits path.slashed) && !filter.excluding.any (·.fits path.slashed)

/-- Whether a directory of the workspace need not be entered. -/
def prunes (filter : FileFilter) (directory : Path) : Bool :=
  filter.excludedDirectories.any (·.fits directory.slashed)

end FileFilter

end AutoImport
