import AutoImport.Completion.Context
import AutoImport.Completion.Item
import AutoImport.Completion.MissingName
import AutoImport.Engine.Basic
import AutoImport.Import.Resolve

/-!
# What an engine answers

Completions, actions for a diagnostic, and the edit that imports a symbol. The questions are counted.
-/

namespace AutoImport

/-- An action that imports a missing name. -/
structure QuickFix where
  /-- The statement that the action adds. -/
  title : String
  symbol : ExportedSymbol
  deriving DecidableEq, Repr

namespace Engine

def countQuery (engine : Engine) : Engine :=
  { engine with
    indexer := { engine.indexer with
      metrics := { engine.indexer.metrics with
        queryRequests := engine.indexer.metrics.queryRequests + 1 } } }

def countEdit (engine : Engine) : Engine :=
  { engine with
    indexer := { engine.indexer with
      metrics := { engine.indexer.metrics with
        importEdits := engine.indexer.metrics.importEdits + 1 } } }

def querySymbols (query : String) (fromStart : Bool) (mode : MatchMode) (engine : Engine) :
    List CompletionItem × Engine :=
  if engine.isEnabled then
    ((engine.index.getSymbols query fromStart mode).map .ofSymbol, engine.countQuery)
  else ([], engine)

def queryModules (query : String) (fromStart : Bool) (mode : MatchMode) (engine : Engine) :
    List CompletionItem × Engine :=
  if engine.isEnabled then
    ((engine.index.getModules query fromStart mode).map .ofModule, engine.countQuery)
  else ([], engine)

/-- Completions for the cursor after the first `column` characters of a line. -/
def completeAt (line : String) (column : Nat) (engine : Engine) : List CompletionItem × Engine :=
  match completionContext? line.toList column with
  | some (.module query ..) => engine.queryModules query true .anyCase
  | some (.symbol name) => engine.querySymbols name true .anyCase
  | none => ([], engine)

/-- A document as the index files it, or as it is spelled when it lies outside the workspace. -/
def documentPath (tree : FileTree) (document : Path) (engine : Engine) : Path :=
  (engine.indexer.workspace.relativize? tree document).getD document

/-- The action that imports a symbol into a document, if there is a way to it. -/
def quickFix? (style : ImportStyle) (document : Path) (symbol : ExportedSymbol) : Option QuickFix :=
  match resolveModule document symbol with
  | .ok specifier => some ⟨style.statement [⟨symbol.name, none⟩] specifier, symbol⟩
  | .error _ => none

def quickFixes (tree : FileTree) (document : Path) (diagnostic : String) (engine : Engine) :
    List QuickFix × Engine :=
  match engine.isEnabled, missingName? diagnostic with
  | true, some name =>
    let document := engine.documentPath tree document
    ((engine.index.getSymbols name false .exact).filterMap
      (quickFix? engine.settings.style document), engine.countQuery)
  | _, _ => ([], engine)

/-- The edit that imports a symbol into a document with the given text. -/
def importSymbol (tree : FileTree) (document : Path) (text : List Char) (symbol : ExportedSymbol)
    (engine : Engine) : Except ImportError ImportEdit × Engine :=
  -- The switch for importing is not looked at here: only queries and scans go by it.
  match engine.settings.style.importSymbol (engine.documentPath tree document) text symbol with
  | .ok done => (.ok done, if done.effect == .alreadyImported then engine else engine.countEdit)
  | .error error => (.error error, engine)

end Engine

end AutoImport
