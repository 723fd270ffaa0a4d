import AutoImport.Indexer.Basic

/-!
# Full scans

A full scan goes through points, one step at a time, so that other scans can begin between two steps. A
scan that finds that a newer one has begun stops, and its report says so.
-/

namespace AutoImport

structure ScanProgress where
  /-- The files whose symbols are in the index now. -/
  scanned : Nat
  /-- The files that the scan came across. -/
  seen : List Path
  errors : List FileError
  deriving Repr, Inhabited

def ScanProgress.none : ScanProgress :=
  ⟨0, [], []⟩

/-- Where a scan stands. Whether it is stale is looked up in a step of its own, so that a newer scan can
begin between the look and what follows from it. -/
inductive ScanPoint where
  /-- The scan may work on the index, and no other scan may. -/
  | entered
  /-- The scan was not stale, and the index is to be cleared. -/
  | clearing
  /-- The index was cleared, if it had to be. -/
  | cleared
  /-- The scan was not stale, and the status is to say that it is running. -/
  | starting
  /-- The status says that a scan is running. -/
  | announced
  /-- Some files are left, and others, for which the scan was not stale, are about to be committed. -/
  | committing (left taken : List Path) (progress : ScanProgress)
  /-- The scan was not stale after its last file. -/
  | sweeping (progress : ScanProgress)
  /-- The files that the scan did not come across are gone. -/
  | swept (progress : ScanProgress)
  | returned (report : ScanReport)
  deriving Repr, Inhabited

structure ScanCall where
  /-- Whether the scan starts from an empty index. -/
  afresh : Bool
  generation : Nat
  deriving DecidableEq, Repr, Inhabited

namespace ScanProgress

def add (progress : ScanProgress) (path : Path) (result : Except FileFailure Nat) : ScanProgress :=
  match result with
  | .ok _ => { progress with scanned := progress.scanned + 1, seen := path :: progress.seen }
  | .error failure =>
    { progress with
      seen := path :: progress.seen
      errors := progress.errors ++ [⟨path, failure.message, failure.stage⟩] }

end ScanProgress

namespace Indexer

/-- The indexer after a full scan was called for, and that scan. -/
def callScan (afresh : Bool) (indexer : Indexer) : ScanCall × Indexer :=
  let indexer := indexer.cancel
  (⟨afresh, indexer.generation⟩, indexer)

/-- The indexer without the files that a scan did not come across. -/
def sweep (seen : List Path) (indexer : Indexer) : Indexer :=
  (indexer.index.listFiles.filter fun path => !seen.any fun other => decide (other.Same path)).foldl
    (fun indexer path => indexer.removeFile path) indexer

def close (progress : ScanProgress) (indexer : Indexer) : ScanReport × Indexer :=
  let counted := { indexer with
    metrics := { indexer.metrics with
      filesScanned := indexer.metrics.filesScanned + progress.scanned
      timedScans := indexer.metrics.timedScans + 1 } }
  let indexer := counted.measure.announce .ready
  ({ filesScanned := progress.scanned
     filesFailed := progress.errors.length
     symbolsIndexed := indexer.index.stats.symbols
     errors := FileError.sort progress.errors
     milliseconds := 0
     cancelled := false }, indexer)

/-- One step of a scan. While files are committed, several workers go on side by side: `pick` counts
through the files that are left, of which one is taken up or, by a stale scan, passed over, and then
through those that were taken up, of which one is committed. -/
def advance (tree : FileTree) (call : ScanCall) (pick : Nat) :
    ScanPoint → Indexer → ScanPoint × Indexer
  | .entered, indexer =>
    if !call.afresh then (.cleared, indexer)
    else if indexer.isStale call.generation then (.returned .superseded, indexer)
    else (.clearing, indexer)
  | .clearing, indexer => (.cleared, indexer.clear)
  | .cleared, indexer =>
    if indexer.isStale call.generation then (.returned .superseded, indexer)
    else (.starting, indexer)
  | .starting, indexer => (.announced, indexer.announce .scanning)
  | .announced, indexer =>
    -- The files are listed once; what appears later is a matter for updates.
    (.committing (indexer.workspace.collect tree) [] .none, { indexer with packages := .empty })
  -- A stale scan drains the files that are left and stops here, before it would sweep.
  | .committing [] [] progress, indexer =>
    if indexer.isStale call.generation then (.returned .superseded, indexer)
    else (.sweeping progress, indexer)
  | .committing left taken progress, indexer =>
    match left[pick]? with
    | some path =>
      if indexer.isStale call.generation then
        (.committing (left.eraseIdx pick) taken progress, indexer)
      else (.committing (left.eraseIdx pick) (taken ++ [path]) progress, indexer)
    | none =>
      match taken[pick - left.length]? with
      | none => (.committing left taken progress, indexer)
      | some path =>
        let (result, indexer) := indexer.commit tree path
        -- What was taken up is committed even by a scan that became stale since.
        (.committing left (taken.eraseIdx (pick - left.length)) (progress.add path result), indexer)
  | .sweeping progress, indexer => (.swept progress, indexer.sweep progress.seen)
  | .swept progress, indexer =>
    let (report, indexer) := indexer.close progress
    (.returned report, indexer)
  | .returned report, indexer => (.returned report, indexer)

/-- Several steps of a scan, which takes the files in order. -/
def advanceTimes (tree : FileTree) (call : ScanCall) :
    (steps : Nat) → ScanPoint → Indexer → ScanPoint × Indexer
  | 0, point, indexer => (point, indexer)
  | steps + 1, point, indexer =>
    let (point, indexer) := advance tree call 0 point indexer
    advanceTimes tree call steps point indexer

/-- The number of steps after which a scan of the workspace is over. -/
def scanLength (tree : FileTree) (indexer : Indexer) : Nat :=
  2 * (indexer.workspace.collect tree).length + 8

/-- The rest of a scan, when nothing comes between its steps. -/
def finishScan (tree : FileTree) (call : ScanCall) (point : ScanPoint) (indexer : Indexer) :
    ScanReport × Indexer :=
  match advanceTimes tree call (indexer.scanLength tree) point indexer with
  | (.returned report, indexer) => (report, indexer)
  | (_, indexer) => (.superseded, indexer)

def scan (tree : FileTree) (afresh : Bool) (indexer : Indexer) : ScanReport × Indexer :=
  let (call, indexer) := indexer.callScan afresh
  finishScan tree call .entered indexer

def scanAll (tree : FileTree) (indexer : Indexer) : ScanReport × Indexer :=
  indexer.scan tree false

def rebuild (tree : FileTree) (indexer : Indexer) : ScanReport × Indexer :=
  indexer.scan tree true

end Indexer

end AutoImport
