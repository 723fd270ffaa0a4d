import AutoImport.Import.Statement
import AutoImport.Path.Basic

/-!
# Settings

What a workspace can set: whether importing is on and what is announced, which files are indexed, how
statements are written, how long changes are collected, and where logs go.
-/

namespace AutoImport

inductive NotificationLevel where
  | off
  | errors
  | all
  deriving DecidableEq, Repr, Inhabited

namespace NotificationLevel

def label : NotificationLevel → String
  | .off => "off"
  | .errors => "errors"
  | .all => "all"

def ofLabel? : String → Option NotificationLevel
  | "off" => some .off
  | "errors" => some .errors
  | "all" => some .all
  | _ => none

end NotificationLevel

inductive NotificationKind where
  | info
  | error
  deriving DecidableEq, Repr

namespace NotificationKind

/-- Whether announcements of a kind are made at a level. -/
def allowedBy : NotificationKind → NotificationLevel → Bool
  | .info, level => level == .all
  | .error, level => level != .off

end NotificationKind

structure ImporterSettings where
  enabled : Bool
  notifications : NotificationLevel
  deriving DecidableEq, Repr, Inhabited

structure ScanSettings where
  /-- Patterns of files to index. -/
  including : List String
  /-- Patterns of files to leave out even so. -/
  excluding : List String
  respectGitignore : Bool
  parallelThreads : Option Nat
  deriving DecidableEq, Repr, Inhabited

structure WatchSettings where
  /-- For how many milliseconds changes are collected before they are applied. -/
  debounceMs : Nat
  deriving DecidableEq, Repr, Inhabited

structure LoggingSettings where
  /-- Whether logs are written to files. -/
  enabled : Bool
  stderr : Bool
  level : String
  directory : Path
  filePrefix : String
  rotation : String
  deriving DecidableEq, Repr, Inhabited

structure Settings where
  importer : ImporterSettings
  scan : ScanSettings
  style : ImportStyle
  watch : WatchSettings
  logging : LoggingSettings
  deriving DecidableEq, Repr, Inhabited

namespace Settings

def standard : Settings where
  importer := ⟨true, .all⟩
  scan := ⟨["**/*.ts", "**/*.tsx"],
    ["**/node_modules/**", "**/dist/**", "**/build/**", "**/.git/**"], true, none⟩
  style := .standard
  watch := ⟨500⟩
  logging := ⟨false, true, "debug", ⟨".tsimport/logs"⟩, "tsimport.log", "daily"⟩

end Settings

end AutoImport
