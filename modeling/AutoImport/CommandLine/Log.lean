import AutoImport.Files.Tree
import AutoImport.Settings.Basic
import AutoImport.Text.Lowercase

/-!
# Preparing the log

Before a command runs, the directory of the log is made if logs are written to files. Words of the
settings that say nothing about logs are warned of.
-/

namespace AutoImport

open Text

namespace LoggingSettings

def levels : List String :=
  ["trace", "debug", "info", "warn", "error"]

def rotations : List String :=
  ["hourly", "daily", "minutely", "never"]

/-- Whether a text is one of the given words, in any case. -/
def isOneOf (words : List String) (text : String) : Bool :=
  words.contains (String.ofList (lowercase text.toList))

/-- What the settings for logs are warned of. -/
def warnings (settings : LoggingSettings) : List String :=
  if !settings.enabled then []
  else
    (if isOneOf rotations settings.rotation then []
    else ["Warning: Unknown rotation strategy '" ++ settings.rotation ++ "', defaulting to 'daily'"]) ++
    (if isOneOf levels settings.level then []
    else ["Warning: Unknown log level '" ++ settings.level ++ "', defaulting to 'debug'"])

def directoryIn (settings : LoggingSettings) (root : Path) : Path :=
  root.join settings.directory

/-- Whether all logs go into one file, whose name tells no time. -/
def hasOneFile (settings : LoggingSettings) : Bool :=
  isOneOf ["never"] settings.rotation

/-- The files after the directory of the log is made, or the directory that cannot be made. -/
def prepare (settings : LoggingSettings) (tree : FileTree) (root : Path) : Except Path FileTree :=
  if !settings.enabled then .ok tree
  else
    let directory := settings.directoryIn root
    if !tree.isDirectory directory && tree.hasEntry directory then .error directory
    else
      let tree := tree.makeDirectory directory
      let file := directory.join ⟨settings.filePrefix⟩
      -- Files that are begun anew have a time in their names, which is not known here.
      if settings.hasOneFile && !tree.hasEntry file then .ok (tree.write file (.text ""))
      else .ok tree

end LoggingSettings

end AutoImport
