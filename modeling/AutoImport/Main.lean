import AutoImport.CommandLine.Answer

/-!
# The program

Reads the files of the current directory, has a command answered, prints the answer, and writes the
files that the command changed.
-/

namespace AutoImport.Program

def diskPath (location : Location) : String :=
  (FileTree.pathOf location).spelling

/-- The location of an absolute path on the disk. -/
def locationOf (path : String) : Location :=
  (Path.mk path).components.filterMap fun component =>
    match component with
    | .name text => some text
    | _ => none

/-- The entries below a directory on the disk. Links lead to where they end up. -/
partial def readEntries (location : Location) : IO (List (Location × FileNode)) := do
  let mut entries := []
  for entry in ← (← IO.FS.realPath (diskPath location)).readDir do
    let below := location ++ [entry.fileName]
    match (← entry.path.symlinkMetadata).type with
    | .dir => entries := entries ++ (below, .directory) :: (← readEntries below)
    | .file =>
      let content ← IO.FS.readBinFile (diskPath below)
      entries := entries ++ [(below, .file (.ofBytes content.toList))]
    | .symlink =>
      let target ← IO.FS.realPath (diskPath below)
      entries := entries ++ [(below, .link ⟨target.toString⟩)]
    | .other => pure ()
  return entries

/-- The files at and below a directory on the disk, and those at further paths. -/
def readTree (root : Path) (further : List Path) : IO FileTree := do
  let location := locationOf root.spelling
  let mut tree := FileTree.withDirectories ⟨← readEntries location⟩ location
  for path in further do
    let absolute := (root.join path).normalize
    if !tree.hasEntry absolute then
      try
        let content ← IO.FS.readBinFile absolute.spelling
        tree := tree.write absolute (.ofBytes content.toList)
      -- A file that cannot be read is missing; the command that needs it says so.
      catch _ => pure ()
  return tree

/-- Writes the files that are new in a tree. -/
def writeChanges (before after : FileTree) : IO Unit := do
  for (location, node) in after.newSince before do
    match node with
    | .directory => IO.FS.createDirAll (diskPath location)
    | .file (.text written) =>
      IO.FS.createDirAll (diskPath location.dropLast)
      IO.FS.writeFile (diskPath location) written
    | _ => pure ()

def printLines (lines : List String) : IO Unit := do
  let output ← IO.getStdout
  output.putStr (linesText lines)
  output.flush

def fail (error : CommandError) : IO UInt32 := do
  IO.eprintln ("Error: " ++ error.message)
  return 1

/-- What the file system would report, given the files before and after. -/
def reportsBetween (before after : FileTree) : List FileReport :=
  [⟨.modify, (after.newSince before).map fun (location, _) => FileTree.pathOf location⟩,
    ⟨.remove, (before.goneIn after).map FileTree.pathOf⟩]

/-- Follows the changes of a workspace until the program is stopped. -/
partial def watch (session : Session) (debounceMs : Nat) : IO Unit := do
  IO.sleep debounceMs.toUInt32
  let tree ← readTree session.root []
  let (done, session) := session.follow tree (reportsBetween session.tree tree)
  printLines (Session.roundLines done)
  watch session debounceMs

/-- Prints an answer and writes the files that changed. -/
def finish (before : FileTree) (answer : Except CommandError (List String × FileTree)) :
    IO UInt32 := do
  match answer with
  | .error error => fail error
  | .ok (lines, after) =>
    writeChanges before after
    printLines lines
    return 0

def runIn (root : Path) (command : Command) : IO UInt32 := do
  let tree ← readTree root command.document?.toList
  let (warnings, prepared) := Command.prepare tree root
  for warning in warnings do
    IO.eprintln warning
  match prepared, command with
  | .error error, _ => fail error
  | .ok prepared, .init force => finish tree (Command.setUp prepared root force)
  | .ok prepared, command =>
    writeChanges tree prepared
    let begun ← IO.monoMsNow
    match Session.start prepared root command.showsScan with
    | .error error => fail error
    | .ok session =>
      let ended ← IO.monoMsNow
      let code ← finish prepared (command.answer session (.ofMilliseconds (ended - begun)))
      if let .watch debounceMs := command then
        watch session (session.debounceOf debounceMs)
      return code

end AutoImport.Program

open AutoImport in
/-- Runs the command that the command line spells. -/
def main (arguments : List String) : IO UInt32 := do
  match Command.read arguments with
  | .error .helpWanted =>
    Program.printLines Command.helpLines
    return 0
  | .error .versionWanted =>
    IO.println (versionText (Command.versionTopic? arguments))
    return 0
  | .error error =>
    IO.eprintln ("error: " ++ error.message)
    return 2
  | .ok command => Program.runIn ⟨(← IO.currentDir).toString⟩ command
