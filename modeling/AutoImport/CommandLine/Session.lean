import AutoImport.CommandLine.Log
import AutoImport.Engine.Query
import AutoImport.Settings.File

/-!
# A workspace for a command

Every command but the one that writes settings works on a workspace that was scanned just before.
-/

namespace AutoImport

open Text

inductive CommandError where
  | settings (error : SettingsError)
  | engine (error : EngineError)
  | logDirectory (directory : Path)
  | alreadyInitialized (directory : Path)
  | unreadable (document : Path)
  | unwritable (document : Path)
  | symbolMissing (name : String)
  /-- Several files export the name. -/
  | severalSymbols (name : String) (files : List Path)
  | notImportable (error : ImportError)
  deriving DecidableEq, Repr

namespace CommandError

def message : CommandError → String
  | .settings error => error.message
  | .engine error => error.message
  | .logDirectory directory => "Failed to create log directory: " ++ directory.spelling
  | .alreadyInitialized directory =>
    "tsimport is already initialized in " ++ quoted directory.spelling ++
      " (use --force to overwrite)"
  | .unreadable document => "Failed to read " ++ document.spelling
  | .unwritable document => "Failed to write " ++ document.spelling
  | .symbolMissing name => "No exported symbol named '" ++ name ++ "' in the index"
  | .severalSymbols name files =>
    "'" ++ name ++ "' is exported from several files; pick one with --from:\n" ++
      "\n".intercalate (files.map fun file => "  " ++ file.spelling)
  | .notImportable error => error.message

end CommandError

/-- A workspace that was scanned. -/
structure Session where
  tree : FileTree
  /-- The directory in which the program runs. -/
  root : Path
  engine : Engine
  /-- What came of the scan. -/
  report : ScanReport
  deriving Repr, Inhabited

namespace Session

def start (tree : FileTree) (root : Path) (showSummary : Bool) : Except CommandError Session := do
  let settings ← (Settings.load tree root).mapError .settings
  let engine ← (Engine.new tree root settings).mapError .engine
  let (report, engine) := engine.reindex tree showSummary
  .ok ⟨tree, root, engine, report⟩

end Session

end AutoImport
