import AutoImport.Indexer.Concurrent
import AutoImport.Settings.Basic

/-!
# The engine of a workspace

An engine serves one workspace by its settings: it has the index filled, says what came of it, and
answers nothing while importing is switched off.
-/

namespace AutoImport

inductive EngineError where
  | rootMissing (root : Path)
  | malformedPattern (pattern : String)
  deriving DecidableEq, Repr

namespace EngineError

def message : EngineError → String
  | .rootMissing root => "Workspace root not found: " ++ root.spelling
  | .malformedPattern pattern => "Invalid glob pattern '" ++ pattern ++ "'"

end EngineError

/-- What an engine says to the user. -/
inductive Notice where
  | summary (report : ScanReport)
  /-- A scan failed on some files. -/
  | failures (files : Nat)
  deriving DecidableEq, Repr

namespace Notice

def kind : Notice → NotificationKind
  | .summary _ => .info
  | .failures _ => .error

/-- The words of a notice in which the duration of the scan is written as given. -/
def messageWith (duration : String) : Notice → String
  | .summary report => report.summaryWith duration
  | .failures files => toString files ++ " files could not be indexed"

end Notice

structure Engine where
  settings : Settings
  indexer : Indexer
  /-- What was said so far. -/
  notices : List Notice
  deriving Repr, Inhabited

namespace Engine

/-- The workspace that a directory is by the given settings. -/
def workspaceOf (tree : FileTree) (root : Path) (settings : Settings) :
    Except EngineError Workspace :=
  match tree.locate? root with
  | none => .error (.rootMissing root)
  | some location =>
    match FileFilter.ofSettings settings.scan with
    | .error pattern => .error (.malformedPattern pattern)
    | .ok filter => .ok ⟨location, filter, settings.scan.respectGitignore⟩

/-- The engine of a workspace before its first scan. -/
def new (tree : FileTree) (root : Path) (settings : Settings) : Except EngineError Engine := do
  let workspace ← workspaceOf tree root settings
  let indexer := Indexer.new workspace
  .ok ⟨settings, if settings.importer.enabled then indexer else indexer.announce .disabled, []⟩

def isEnabled (engine : Engine) : Bool :=
  engine.settings.importer.enabled

def index (engine : Engine) : SymbolIndex :=
  engine.indexer.index

/-- The root of a workspace, without links on its path. -/
def root (engine : Engine) : Path :=
  engine.indexer.workspace.rootPath

/-- The engine after it said something, if the settings let it. -/
def notify (notice : Notice) (engine : Engine) : Engine :=
  if notice.kind.allowedBy engine.settings.importer.notifications then
    { engine with notices := engine.notices ++ [notice] }
  else engine

/-- The engine after it said what came of a scan. The summary is only said when it is asked for. -/
def report (showSummary : Bool) (engine : Engine) (report : ScanReport) : Engine :=
  -- The scan that took over says what came of it.
  if report.cancelled then engine
  else
    let engine := if report.hasErrors then engine.notify (.failures report.filesFailed) else engine
    if showSummary then engine.notify (.summary report) else engine

/-- Fills the index anew, while other things happen right after the scan said that it is running. The
answers are the reports of this scan and of those that were called for meanwhile. -/
def reindexDuring (tree : FileTree) (meanwhile : List CallEvent) (showSummary : Bool)
    (engine : Engine) : List ScanReport × Engine :=
  -- Five steps take the scan from its turn to the point at which it has told its status.
  let begun := [CallEvent.callScan true] ++ List.replicate 5 (.step 0 0) ++ meanwhile
  let system := (Concurrent.idle engine.indexer).run tree begun
  -- Then each call runs to its end, in the order of the calls.
  let rest := (List.range system.calls.length).flatMap (Concurrent.wholeScan tree system.indexer)
  let system := system.run tree rest
  if engine.isEnabled then
    (system.reports, system.reports.foldl (report showSummary) { engine with indexer := system.indexer })
  else (system.calls.map fun _ => .nothing, engine)

def reindex (tree : FileTree) (showSummary : Bool) (engine : Engine) : ScanReport × Engine :=
  if engine.isEnabled then
    let (scanned, indexer) := engine.indexer.rebuild tree
    (scanned, report showSummary { engine with indexer := indexer } scanned)
  else (.nothing, engine)

def scanAll (tree : FileTree) (engine : Engine) : ScanReport × Engine :=
  let (scanned, indexer) := engine.indexer.scanAll tree
  (scanned, { engine with indexer := indexer })

def scanFile (tree : FileTree) (path : Path) (engine : Engine) : FileOutcome × Engine :=
  if engine.isEnabled then
    let (outcome, indexer) := engine.indexer.scanFile tree path
    (outcome, { engine with indexer := indexer })
  else (.skipped, engine)

end Engine

end AutoImport
