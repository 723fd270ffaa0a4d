import AutoImport.Indexer.Scan
import AutoImport.Indexer.Update

/-!
# Calls at the same time

Several scans and updates may be called for on one indexer. Each waits until no other is at work, and
then goes on step by step. `Concurrent.run` follows any order in which calls begin and make their
steps.
-/

namespace AutoImport

/-- Where a call stands. -/
inductive CallPoint where
  /-- A full scan that waits for its turn. -/
  | scanWaiting (call : ScanCall)
  | scanning (call : ScanCall) (point : ScanPoint)
  /-- An update that waits for its turn. -/
  | updateWaiting (path : Path)
  /-- An update of a file of the workspace, during which a status is put aside. -/
  | updating (path : Path) (before : IndexerStatus)
  /-- The file was updated, and the status is to be told. -/
  | updated (outcome : FileOutcome) (before : IndexerStatus)
  | scanReturned (report : ScanReport)
  | updateReturned (outcome : FileOutcome)
  deriving Repr, Inhabited

namespace CallPoint

def isOver : CallPoint → Bool
  | .scanReturned _ | .updateReturned _ => true
  | _ => false

def isWaiting : CallPoint → Bool
  | .scanWaiting _ | .updateWaiting _ => true
  | _ => false

def isAtWork (point : CallPoint) : Bool :=
  !point.isOver && !point.isWaiting

end CallPoint

inductive CallEvent where
  | callScan (afresh : Bool)
  | callUpdate (path : Path)
  | cancel
  /-- A call makes a step. A scan that commits files takes the one at place `pick`. -/
  | step (call pick : Nat)
  deriving DecidableEq, Repr

/-- An indexer with the calls on it, in the order in which they began. -/
structure Concurrent where
  indexer : Indexer
  calls : List CallPoint
  deriving Repr, Inhabited

namespace Concurrent

/-- An indexer without calls on it. -/
def idle (indexer : Indexer) : Concurrent :=
  ⟨indexer, []⟩

def isBusy (system : Concurrent) : Bool :=
  system.calls.any CallPoint.isAtWork

/-- One step of a call. A call that waits begins its work if no other is at work. -/
def advanceCall (tree : FileTree) (pick : Nat) (busy : Bool) :
    CallPoint → Indexer → CallPoint × Indexer
  | .scanWaiting call, indexer =>
    (if busy then .scanWaiting call else .scanning call .entered, indexer)
  | .scanning call point, indexer =>
    match indexer.advance tree call pick point with
    | (.returned report, indexer) => (.scanReturned report, indexer)
    | (point, indexer) => (.scanning call point, indexer)
  | .updateWaiting path, indexer =>
    if busy then (.updateWaiting path, indexer)
    else
      match indexer.workspace.relativize? tree path with
      -- Outside the workspace nothing is done, and no status is told.
      | none => (.updateReturned .skipped, indexer)
      | some relative => (.updating relative indexer.status, indexer.announce (.updating relative))
  | .updating path before, indexer =>
    let (outcome, indexer) := indexer.updateFile tree path
    (.updated outcome before, indexer)
  | .updated outcome before, indexer => (.updateReturned outcome, indexer.endUpdate before)
  | .scanReturned report, indexer => (.scanReturned report, indexer)
  | .updateReturned outcome, indexer => (.updateReturned outcome, indexer)

/-- The indexer and its calls after an event. -/
def after (tree : FileTree) (system : Concurrent) : CallEvent → Concurrent
  | .callScan afresh =>
    -- The generation is taken at once, so a waiting scan makes the running one stale.
    let (call, indexer) := system.indexer.callScan afresh
    ⟨indexer, system.calls ++ [.scanWaiting call]⟩
  | .callUpdate path => { system with calls := system.calls ++ [.updateWaiting path] }
  | .cancel => { system with indexer := system.indexer.cancel }
  | .step place pick =>
    match system.calls[place]? with
    | none => system
    | some point =>
      let (point, indexer) := advanceCall tree pick system.isBusy point system.indexer
      ⟨indexer, system.calls.set place point⟩

def run (tree : FileTree) (system : Concurrent) (events : List CallEvent) : Concurrent :=
  events.foldl (after tree) system

/-- The reports of the full scans that are over. -/
def reports (system : Concurrent) : List ScanReport :=
  system.calls.filterMap fun point =>
    match point with
    | .scanReturned report => some report
    | _ => none

/-- As many steps of a call as any full scan takes. -/
def wholeScan (tree : FileTree) (indexer : Indexer) (place : Nat) : List CallEvent :=
  List.replicate (indexer.scanLength tree + 1) (.step place 0)

end Concurrent

end AutoImport
