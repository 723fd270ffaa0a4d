import AutoImport.Engine.Basic
import AutoImport.Watch.Change

/-!
# Following the changes of a workspace

Reports of the file system become changes of files that may be indexed, and each of these files is read
again.
-/

namespace AutoImport

namespace WatchStats

def add (stats : WatchStats) : FileOutcome → WatchStats
  | .indexed symbols =>
    { stats with
      filesIndexed := stats.filesIndexed + 1, symbolsIndexed := stats.symbolsIndexed + symbols }
  | .removed symbols =>
    { stats with
      filesRemoved := stats.filesRemoved + 1, symbolsRemoved := stats.symbolsRemoved + symbols }
  | .failed _ => { stats with filesFailed := stats.filesFailed + 1 }
  | .skipped => stats

end WatchStats

/-- What the file system reports of some paths. -/
structure FileReport where
  event : FileEvent
  paths : List Path
  deriving DecidableEq, Repr

namespace Engine

/-- Whether changes of a path are followed: it leads to a file of the workspace that the patterns
accept. -/
def follows (tree : FileTree) (path : Path) (engine : Engine) : Bool :=
  match engine.indexer.workspace.relativize? tree path with
  | some relative => engine.indexer.workspace.filter.accepts relative
  | none => false

/-- The changes that reports stand for: the last one of each file that is followed. -/
def changesOf (tree : FileTree) (reports : List FileReport) (engine : Engine) : List FileChange :=
  FileChange.lastOfEach (reports.flatMap fun report =>
    match report.event.change? with
    | none => []
    | some change =>
      -- A path that is gone counts as a file, since nothing says what it was.
      (report.paths.filter fun path => !tree.isDirectory path && engine.follows tree path).map
        (⟨·, change⟩))

def applyChanges (tree : FileTree) (changes : List FileChange) (engine : Engine) :
    WatchStats × Engine :=
  changes.foldl (fun (stats, engine) change =>
    let (outcome, engine) := engine.scanFile tree change.path
    (stats.add outcome, engine)) (.zero, engine)

end Engine

end AutoImport
