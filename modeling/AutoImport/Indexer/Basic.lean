import AutoImport.Package.Cache
import AutoImport.Scan.Report
import AutoImport.Scan.Status
import AutoImport.Scan.Walk
import AutoImport.Source.Exports
import AutoImport.Symbol.Index

/-!
# The indexer of a workspace

The indexer fills the index of a workspace from its files. This file holds its state and the single
steps of which scans and updates consist: telling a status, taking a generation, committing one file.
-/

namespace AutoImport

structure Metrics where
  filesScanned : Nat
  parseErrors : Nat
  queryRequests : Nat
  importEdits : Nat
  indexedSymbols : Nat
  indexedModules : Nat
  /-- How many scans were timed. -/
  timedScans : Nat
  deriving DecidableEq, Repr, Inhabited

def Metrics.zero : Metrics :=
  ⟨0, 0, 0, 0, 0, 0, 0⟩

inductive FileFailure where
  /-- The file holds no text. -/
  | unreadable (file : Path)
  | malformed (file : Path) (line : Nat)
  deriving DecidableEq, Repr

namespace FileFailure

def message : FileFailure → String
  | .unreadable file =>
    "failed to read " ++ file.spelling ++ ": stream did not contain valid UTF-8"
  | .malformed file line =>
    "syntax error in " ++ file.spelling ++ " at line " ++ toString line

def stage : FileFailure → ScanStage
  | .unreadable _ => .read
  | .malformed .. => .parse

end FileFailure

structure Indexer where
  workspace : Workspace
  index : SymbolIndex
  packages : PackageCache
  status : IndexerStatus
  /-- How often a status was told. -/
  announcements : Nat
  /-- The number of the newest full scan. A scan with a smaller number is stale. -/
  generation : Nat
  metrics : Metrics
  deriving Repr, Inhabited

namespace Indexer

/-- The indexer of a workspace before its first scan. -/
def new (workspace : Workspace) : Indexer where
  workspace := workspace
  index := .empty
  packages := .empty
  status := .initializing
  announcements := 0
  generation := 0
  metrics := .zero

/-- The indexer after it told a status. -/
def announce (status : IndexerStatus) (indexer : Indexer) : Indexer :=
  { indexer with status := status, announcements := indexer.announcements + 1 }

/-- The indexer after all running scans became stale. -/
def cancel (indexer : Indexer) : Indexer :=
  { indexer with generation := indexer.generation + 1 }

/-- Whether a newer scan than the one of a generation has begun. -/
def isStale (indexer : Indexer) (generation : Nat) : Bool :=
  indexer.generation != generation

def clear (indexer : Indexer) : Indexer :=
  { indexer with index := .empty }

def removeFile (path : Path) (indexer : Indexer) : Indexer :=
  { indexer with index := indexer.index.removeFile path }

def measure (indexer : Indexer) : Indexer :=
  let stats := indexer.index.stats
  { indexer with
    metrics :=
      { indexer.metrics with indexedSymbols := stats.symbols, indexedModules := stats.modules } }

/-! ## Committing a file -/

/-- The exports of a file of a workspace. -/
def exportsOfFile (tree : FileTree) (workspace : Workspace) (path : Path) :
    Except FileFailure (List Source.Export) :=
  let absolute := workspace.rootPath.join path
  match (tree.content? absolute).bind FileContent.text? with
  | none => .error (.unreadable absolute)
  | some text =>
    match Source.exportsOf (Source.Dialect.ofPath absolute) text.toList with
    | .error line => .error (.malformed absolute line)
    | .ok exports => .ok exports

/-- The symbol that an export of a file is. What is declared in a quoted module belongs to that module;
all else belongs to the package of the file, if it is in one. -/
def symbolOf (path : Path) (package? : Option String) (found : Source.Export) : ExportedSymbol :=
  ⟨found.name, found.kind, path, found.ambientModule.or package?⟩

/-- Reads a file and puts its symbols into the index in place of those it had. A file that fails has no
symbols. The answer is the number of symbols. -/
def commit (tree : FileTree) (path : Path) (indexer : Indexer) :
    Except FileFailure Nat × Indexer :=
  match exportsOfFile tree indexer.workspace path with
  | .error failure =>
    -- The package is not looked up, so a failure leaves what is remembered alone.
    (.error failure,
      { indexer.removeFile path with
        metrics := { indexer.metrics with parseErrors := indexer.metrics.parseErrors + 1 } })
  | .ok exports =>
    let (package?, packages) := indexer.packages.specifierFor tree indexer.workspace.rootPath path
    let symbols := exports.map (symbolOf path package?)
    (.ok (SymbolIndex.attributed path symbols).length,
      { indexer with packages := packages, index := indexer.index.replaceFile path symbols })

end Indexer

end AutoImport
