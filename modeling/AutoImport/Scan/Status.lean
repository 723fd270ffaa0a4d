import AutoImport.Path.Basic

/-!
# The status of an index

What an index is doing, as it is told to those who watch it.
-/

namespace AutoImport

/-- What an index is doing. -/
inductive IndexerStatus where
  | initializing
  /-- Importing is switched off. -/
  | disabled
  | scanning
  | updating (path : Path)
  | ready
  | failed (message : String)
  deriving DecidableEq, Repr, Inhabited

namespace IndexerStatus

def label : IndexerStatus → String
  | .initializing => "initializing"
  | .disabled => "disabled"
  | .scanning => "scanning workspace"
  | .updating path => "updating " ++ path.spelling
  | .ready => "ready"
  | .failed message => "error: " ++ message

/-- Whether queries are answered from a finished scan. -/
def isReady : IndexerStatus → Bool
  | .ready | .updating _ => true
  | _ => false

end IndexerStatus

end AutoImport
