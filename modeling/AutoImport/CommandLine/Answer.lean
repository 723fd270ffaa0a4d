import AutoImport.CommandLine.Command
import AutoImport.CommandLine.Exposition
import AutoImport.CommandLine.Session
import AutoImport.Engine.Watch

/-!
# What commands answer

The text that each command prints, and the files after it.
-/

namespace AutoImport

open Text

/-- Lines as a text in which each of them is ended. -/
def linesText (lines : List String) : String :=
  String.join (lines.map (· ++ "\n"))

namespace ScanReport

/-- How many failures of a stage are listed. -/
def listedErrors : Nat := 5

def stageLines (stage : ScanStage) (errors : List FileError) : List String :=
  ["  " ++ stage.label ++ ": " ++ toString errors.length ++ " errors"] ++
    (errors.take listedErrors).map (fun error =>
      "    - " ++ error.path.spelling ++ ": " ++ error.error) ++
    (if errors.length > listedErrors then
      ["    ... and " ++ toString (errors.length - listedErrors) ++ " more"]
    else [])

def summaryLines (report : ScanReport) (shown : ShownDuration) : List String :=
  let summary := report.summaryWith shown.twoPlaces
  if report.hasErrors then
    ["⚠️  " ++ summary, ""] ++ report.byStage.flatMap fun (stage, errors) => stageLines stage errors
  else ["✅ " ++ summary]

end ScanReport

namespace CompletionCategory

def title : CompletionCategory → String
  | .classLike => "Class"
  | .interface => "Interface"
  | .variable => "Variable"
  | .file => "File"

end CompletionCategory

/-- A text filled up with blanks to a width. -/
def padded (width : Nat) (text : String) : String :=
  text ++ String.ofList (List.replicate (width - text.length) ' ')

namespace Session

def indexLines (session : Session) (shown : ShownDuration) : List String :=
  let stats := session.engine.index.stats
  session.report.summaryLines shown ++
    if session.engine.isEnabled then
      ["Project root: " ++ session.engine.root.spelling,
        "Index: " ++ toString stats.symbols ++ " symbols in " ++ toString stats.modules ++
          " modules from " ++ toString stats.files ++ " files"]
    else
      ["Importer is disabled in " ++ (session.root.join ⟨".tsimport/config.toml"⟩).spelling]

def completionLine (item : CompletionItem) : String :=
  padded 32 item.label ++ " " ++ padded 10 item.category.title ++ " " ++ item.detail

/-- What is printed for a question for completions. -/
def completionLines (session : Session) (query : String) (modules exact anywhere : Bool)
    (limit : Nat) : List String :=
  let mode := if exact then MatchMode.exact else .anyCase
  -- The session ends with the answer, so what was counted is dropped.
  let (items, _) :=
    if modules then session.engine.queryModules query (!anywhere) mode
    else session.engine.querySymbols query (!anywhere) mode
  if items.isEmpty then ["No matches for '" ++ query ++ "'"]
  else
    (items.take limit).map completionLine ++
      if items.length > limit then ["... and " ++ toString (items.length - limit) ++ " more"] else []

/-- The actions for a diagnostic, with numbers from `number` on. -/
def fixLines : (number : Nat) → List QuickFix → List String
  | _, [] => []
  | number, fix :: fixes =>
    (toString number ++ ". " ++ fix.title ++ "    (" ++ fix.symbol.path.spelling ++ ")") ::
      fixLines (number + 1) fixes

/-- What is printed for a diagnostic. -/
def diagnosticLines (session : Session) (file : Path) (diagnostic : String) : List String :=
  match session.engine.quickFixes session.tree (session.root.join file) diagnostic with
  | ([], _) => ["No import suggestions"]
  | (fixes, _) => fixLines 1 fixes

/-- The symbol of a name, declared in a file if one is given. -/
def pickSymbol (session : Session) (name : String) (source : Option Path) :
    Except CommandError ExportedSymbol :=
  let isWanted (symbol : ExportedSymbol) : Bool :=
    match source with
    | none => true
    | some file => symbol.isDeclaredIn file.normalize
  match (session.engine.index.getSymbols name false .exact).filter isWanted with
  | [] => .error (.symbolMissing name)
  | [symbol] => .ok symbol
  | symbols => .error (.severalSymbols name (symbols.map (·.path)))

/-- Imports a symbol into a file: what is printed, and the files after that. Unless the result is to be
written, the edit is only shown. -/
def addImport (session : Session) (file : Path) (name : String) (source : Option Path)
    (write : Bool) : Except CommandError (List String × FileTree) := do
  let document := session.root.join file
  match (session.tree.content? document).bind FileContent.text? with
  | none => .error (.unreadable document)
  | some text =>
    let symbol ← session.pickSymbol name source
    let (result, _) := session.engine.importSymbol session.tree document text.toList symbol
    let done ← result.mapError .notImportable
    let specifier := "\"" ++ done.specifier ++ "\""
    -- Nothing to write, whether or not writing was asked for.
    if done.effect == .alreadyImported then
      .ok (["'" ++ name ++ "' is already imported from " ++ specifier], session.tree)
    -- The edit is applied to the text that was read, not to the file as it may be by now.
    else if write then
      match done.edit.applied? text.toList with
      | none => .error (.unwritable document)
      | some applied =>
        .ok (["✓ Imported '" ++ name ++ "' from " ++ specifier ++ " in " ++ file.spelling],
          session.tree.write document (.text (String.ofList applied)))
    else
      match done.edit.positions? text.toList with
      | none => .error (.unwritable document)
      | some (start, _) =>
        .ok ([file.spelling ++ ":" ++ toString (start.line + 1) ++ ":" ++
          toString (start.character + 1) ++ " " ++ quoted done.edit.newText], session.tree)

def statsLines (session : Session) (shown : ShownDuration) : List String :=
  let stats := session.engine.index.stats
  let metrics := session.engine.indexer.metrics
  ["tsimport Index Statistics",
    "=========================",
    "",
    "Workspace: " ++ session.root.spelling,
    "Status:    " ++ session.engine.indexer.status.label,
    "",
    "Index Contents:",
    "  Files with exports: " ++ toString stats.files,
    "  Symbols:            " ++ toString stats.symbols,
    "  Modules:            " ++ toString stats.modules,
    "",
    "Scan Metrics:",
    "  Files scanned:   " ++ toString metrics.filesScanned,
    "  Parse errors:    " ++ toString metrics.parseErrors,
    "  Scan duration:   " ++ shown.threePlaces ++ "s"]

/-! ## Watching -/

/-- How many milliseconds changes are collected for. -/
def debounceOf (session : Session) (debounceMs : Option Nat) : Nat :=
  debounceMs.getD session.engine.settings.watch.debounceMs

def watchingLines (session : Session) (debounceMs : Option Nat) (shown : ShownDuration) :
    List String :=
  let including := session.engine.settings.scan.including.map quoted
  session.report.summaryLines shown ++
    ["Starting watch mode...",
      "Watching directory: " ++ quoted session.root.spelling,
      "Debounce delay: " ++ toString (session.debounceOf debounceMs) ++ "ms",
      "Include: [" ++ ", ".intercalate including ++ "]",
      "",
      "Press Ctrl+C to stop.",
      ""]

def roundLines (done : WatchStats) : List String :=
  (if done.filesIndexed > 0 then
    ["  ~ " ++ toString done.filesIndexed ++ " files re-indexed (" ++ toString done.symbolsIndexed ++
      " symbols)"]
  else []) ++
  (if done.filesRemoved > 0 then
    ["  - " ++ toString done.filesRemoved ++ " files removed (" ++ toString done.symbolsRemoved ++
      " symbols)"]
  else [])

def watchedLines (engine : Engine) (total : WatchStats) : List String :=
  let stats := engine.index.stats
  ["",
    "Shutting down...",
    "",
    "Watch session complete!",
    "----------------------------------------",
    "  Files re-indexed: " ++ toString total.filesIndexed,
    "  Files removed:    " ++ toString total.filesRemoved,
    "  Files failed:     " ++ toString total.filesFailed,
    "  Errors:           " ++ toString total.errors,
    "  Index now holds " ++ toString stats.symbols ++ " symbols in " ++ toString stats.modules ++
      " modules"]

/-- The workspace after the file system reported a round of changes of its files, and what was done. -/
def follow (session : Session) (tree : FileTree) (reports : List FileReport) :
    WatchStats × Session :=
  let (done, engine) := session.engine.applyChanges tree (session.engine.changesOf tree reports)
  (done, { session with tree := tree, engine := engine })

end Session

namespace Command

def showsScan : Command → Bool
  | .index | .watch _ => true
  | _ => false

/-- What a command prints for a workspace that was scanned, and the files after it. -/
def answer (session : Session) (shown : ShownDuration) :
    Command → Except CommandError (List String × FileTree)
  | .init _ => .ok ([], session.tree)
  | .index => .ok (session.indexLines shown, session.tree)
  | .complete query modules exact anywhere limit =>
    .ok (session.completionLines query modules exact anywhere limit, session.tree)
  | .fix file diagnostic => .ok (session.diagnosticLines file diagnostic, session.tree)
  | .addImport file name source write => session.addImport file name source write
  | .watch debounceMs => .ok (session.watchingLines debounceMs shown, session.tree)
  | .stats true => .ok (session.engine.indexer.metrics.exposition shown, session.tree)
  | .stats false => .ok (session.statsLines shown, session.tree)

/-- Writes the standard settings into a workspace: what is printed, and the files after that. -/
def setUp (tree : FileTree) (root : Path) (force : Bool) :
    Except CommandError (List String × FileTree) :=
  let directory := Settings.directoryIn root
  if Settings.isInitialized tree root && !force then .error (.alreadyInitialized directory)
  else
    match Settings.standard.save tree root with
    | (.error error, _) => .error (.settings error)
    | (.ok (), tree) =>
      .ok (["✓ Created " ++ directory.spelling ++ " with default configuration",
        "",
        "Next steps:",
        "  1. Edit .tsimport/config.toml to adjust include globs and import style",
        "  2. Run 'tsimport index' to check what gets indexed",
        "  3. Run 'tsimport watch' to keep the index current while editing"], tree)

/-- The files before a command runs, when the log is ready. A settings file that cannot be used says
nothing about logs. -/
def prepare (tree : FileTree) (root : Path) : List String × Except CommandError FileTree :=
  let settings := (Settings.load tree root).toOption.getD Settings.standard
  (settings.logging.warnings, (settings.logging.prepare tree root).mapError .logDirectory)

/-- What a command prints in a directory, and the files after it. -/
def run (command : Command) (tree : FileTree) (root : Path) (shown : ShownDuration) :
    Except CommandError (List String × FileTree) :=
  match command with
  | .init force => setUp tree root force
  | _ => do
    let session ← Session.start tree root command.showsScan
    command.answer session shown

end Command

/-- The version of the program. -/
def versionText (command : Option String) : String :=
  "tsimport" ++ (command.map ("-" ++ ·)).getD "" ++ " 0.1.0"

end AutoImport
