import AutoImport.Indexer.Basic

/-!
# Updates of single files

After a file was created, changed or deleted, it alone is read again. A path may be spelled from
anywhere; it is brought into the form in which the index files it first.
-/

namespace AutoImport

namespace Workspace

/-- The path of a file without links on it. The file may be missing when its directory is there. -/
def resolve? (tree : FileTree) (path : Path) : Option Path :=
  match tree.locate? path with
  | some location => some (FileTree.pathOf location)
  -- The last name need not be there any more.
  | none => do
    let directory ← tree.locate? (← path.parent?)
    some ((FileTree.pathOf directory).join ⟨← path.fileName?⟩)

/-- A path as seen from the root of a workspace, if it leads into the workspace. -/
def relativize? (workspace : Workspace) (tree : FileTree) (path : Path) : Option Path :=
  let absolute := (workspace.rootPath.join path).normalize
  -- By spelling first: a link inside the workspace is filed under its own name.
  (absolute.below? workspace.rootPath).or
    ((resolve? tree absolute).bind (·.below? workspace.rootPath))

end Workspace

inductive FileOutcome where
  /-- The file has so many symbols now. -/
  | indexed (symbols : Nat)
  /-- The file is not indexed, and so many symbols of it were dropped. -/
  | removed (symbols : Nat)
  /-- The path leads out of the workspace. -/
  | skipped
  | failed (failure : FileFailure)
  deriving DecidableEq, Repr

namespace Indexer

/-- What happens to a file of the workspace while the status says so. -/
def updateFile (tree : FileTree) (path : Path) (indexer : Indexer) : FileOutcome × Indexer :=
  if tree.isFile (indexer.workspace.rootPath.join path) && indexer.workspace.accepts tree path then
    match indexer.commit tree path with
    | (.ok symbols, indexer) => (.indexed symbols, indexer)
    | (.error failure, indexer) => (.failed failure, indexer)
  else (.removed (indexer.index.symbolsInFile path).length, indexer.removeFile path)

/-- The status after an update during which another status was put aside. -/
def statusAfterUpdate (before : IndexerStatus) : IndexerStatus :=
  if before.isReady then .ready else before

def endUpdate (before : IndexerStatus) (indexer : Indexer) : Indexer :=
  indexer.measure.announce (statusAfterUpdate before)

def scanFile (tree : FileTree) (path : Path) (indexer : Indexer) : FileOutcome × Indexer :=
  match indexer.workspace.relativize? tree path with
  | none => (.skipped, indexer)
  | some relative =>
    let before := indexer.status
    let (outcome, indexer) := (indexer.announce (.updating relative)).updateFile tree relative
    (outcome, indexer.endUpdate before)

end Indexer

end AutoImport
