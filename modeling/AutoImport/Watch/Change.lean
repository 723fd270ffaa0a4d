import AutoImport.Path.Basic

/-!
# File changes

Changes of single files, as they are reported while a workspace is watched, and the counts that are
kept while they are applied.
-/

namespace AutoImport

inductive ChangeType where
  | created
  | modified
  | deleted
  deriving DecidableEq, Repr, Inhabited

namespace ChangeType

def label : ChangeType → String
  | .created => "created"
  | .modified => "modified"
  | .deleted => "deleted"

end ChangeType

inductive FileEvent where
  | access
  | create
  | modify
  | modifyMetadata
  | remove
  | other
  deriving DecidableEq, Repr

namespace FileEvent

/-- The change of a file's content that an event stands for, if any. -/
def change? : FileEvent → Option ChangeType
  | .create => some .created
  | .modify => some .modified
  | .remove => some .deleted
  | .access | .modifyMetadata | .other => none

end FileEvent

structure FileChange where
  path : Path
  change : ChangeType
  deriving DecidableEq, Repr, Inhabited

namespace FileChange

/-- The last change of each path, in the order of the paths. -/
def lastOfEach (changes : List FileChange) : List FileChange :=
  (keepLast changes).mergeSort fun left right => left.path.compare right.path != .gt
where
  /-- The changes after which their path is not changed again. -/
  keepLast : List FileChange → List FileChange
    | [] => []
    | change :: changes =>
      if changes.any fun later => decide (later.path.Same change.path) then keepLast changes
      else change :: keepLast changes

end FileChange

structure WatchStats where
  filesIndexed : Nat
  filesRemoved : Nat
  filesFailed : Nat
  symbolsIndexed : Nat
  symbolsRemoved : Nat
  /-- Changes that could not be applied at all. -/
  errors : Nat
  deriving DecidableEq, Repr, Inhabited

namespace WatchStats

def zero : WatchStats :=
  ⟨0, 0, 0, 0, 0, 0⟩

def merge (left right : WatchStats) : WatchStats :=
  { filesIndexed := left.filesIndexed + right.filesIndexed
    filesRemoved := left.filesRemoved + right.filesRemoved
    filesFailed := left.filesFailed + right.filesFailed
    symbolsIndexed := left.symbolsIndexed + right.symbolsIndexed
    symbolsRemoved := left.symbolsRemoved + right.symbolsRemoved
    errors := left.errors + right.errors }

def totalFiles (stats : WatchStats) : Nat :=
  stats.filesIndexed + stats.filesRemoved + stats.filesFailed

def hasChanges (stats : WatchStats) : Bool :=
  stats.totalFiles > 0

end WatchStats

end AutoImport
