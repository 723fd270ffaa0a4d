import AutoImport.Files.Tree
import AutoImport.Ignore.Rule
import AutoImport.Scan.Filter

/-!
# Walking a workspace

`Workspace.collect` lists the files that a walk through the directories of a workspace finds. The walk
also reads the ignore files of the directories above the root, and there is nothing that it fails to read.
`Workspace.accepts` tells of a single path whether the walk would find a file there, without walking and
from the ignore files of the workspace alone.
-/

namespace AutoImport

open Text Ignore

/-- A workspace: where it lies, and which of its files are indexed. -/
structure Workspace where
  root : Location
  filter : FileFilter
  respectGitignore : Bool
  deriving Repr, Inhabited

namespace Workspace

def rootPath (workspace : Workspace) : Path :=
  FileTree.pathOf workspace.root

/-! ## The walk -/

/-- The rules of an ignore file in a directory; there are none where there is no such file. -/
def rulesAt (tree : FileTree) (directory : Location) (file : Path) : List Rule :=
  match tree.content? ((FileTree.pathOf directory).join file) with
  | some content => (RuleFile.ofContent content).rules
  | none => []

def namesSlashed (names : List String) : List Char :=
  joinWith ['/'] (names.map String.toList)

/-- The directories from the root of a workspace to the one that holds an entry, innermost first. The
entry is given by its names below the root. -/
def directoriesInside (workspace : Workspace) (names : List String) : List (Location × List String) :=
  ((List.range names.length).map fun count =>
    (workspace.root ++ names.take count, names.drop count)).reverse

/-- The directories above the root of a workspace, innermost first. -/
def directoriesOutside (workspace : Workspace) (names : List String) :
    List (Location × List String) :=
  ((List.range workspace.root.length).map fun count =>
    (workspace.root.take count, workspace.root.drop count ++ names)).reverse

/-- The directories whose ignore files a walk reads for an entry. They do not end at the root of the
workspace. -/
def directoriesAbove (workspace : Workspace) (names : List String) : List (Location × List String) :=
  workspace.directoriesInside names ++ workspace.directoriesOutside names

/-- What the ignore files of one kind say about an entry: the innermost directory that says anything
decides. -/
def verdictOfKind (tree : FileTree) (file : Path) (directories : List (Location × List String))
    (isDirectory : Bool) : Verdict :=
  Verdict.firstOf (directories.map fun (directory, below) =>
    verdictOf (rulesAt tree directory file) (namesSlashed below) isDirectory)

/-- What all ignore files in some directories say about an entry. A `.ignore` file beats a `.gitignore`
file, and that one beats `.git/info/exclude`. The user has no ignore file of their own. -/
def verdictAmong (workspace : Workspace) (tree : FileTree) (directories : List (Location × List String))
    (isDirectory : Bool) : Verdict :=
  let ofKind (file : String) := verdictOfKind tree ⟨file⟩ directories isDirectory
  if workspace.respectGitignore then
    (ofKind ".ignore").orElse ((ofKind ".gitignore").orElse (ofKind ".git/info/exclude"))
  else ofKind ".ignore"

/-- What a walk is told about an entry. -/
def verdict (workspace : Workspace) (tree : FileTree) (names : List String) (isDirectory : Bool) :
    Verdict :=
  workspace.verdictAmong tree (workspace.directoriesAbove names) isDirectory

def isHiddenName (name : String) : Bool :=
  startsWith ['.'] name.toList

/-- Whether a walk passes over an entry: an ignored one, a hidden one that no rule takes back, and a
directory that need not be entered. -/
def passesOver (workspace : Workspace) (tree : FileTree) (names : List String) (isDirectory : Bool) :
    Bool :=
  let hidden :=
    -- A rule that takes an entry back also takes it out of hiding.
    match workspace.verdict tree names isDirectory with
    | .ignored => true
    | .kept => false
    | .silent => (names.getLast?.map isHiddenName).getD false
  hidden || (isDirectory && workspace.filter.prunes ⟨String.ofList (namesSlashed names)⟩)

/-- Whether a walk gets to an entry: it passes over neither the entry nor a directory on the way. -/
def reaches (workspace : Workspace) (tree : FileTree) (names : List String) (isDirectory : Bool) :
    Bool :=
  (List.range names.length).all fun count =>
    -- Every entry on the way is a directory; only the last one is what `isDirectory` says.
    !workspace.passesOver tree (names.take (count + 1)) (count + 1 < names.length || isDirectory)

/-- The files that a walk finds, in the order of their paths below the root. -/
def collect (workspace : Workspace) (tree : FileTree) : List Path :=
  let found := tree.entries.filterMap fun (location, node) =>
    match Path.dropStart? workspace.root location with
    | none => none
    | some names =>
      let path := Path.ofComponents (names.map Component.name)
      if node.isFile && workspace.reaches tree names false && workspace.filter.accepts path then
        some path
      else none
  found.mergeSort fun left right => left.compare right != .gt

/-! ## A single file -/

def hasHiddenName (path : Path) : Bool :=
  path.components.any fun component =>
    match component with
    | .name text => isHiddenName text
    | _ => false

/-- The directories of a path that has to be checked, from the root of the workspace on. -/
def directoriesTo (workspace : Workspace) (path : Path) : List Path :=
  let steps := (path.parent?.map Path.components).getD []
  (FileTree.beginnings steps).map fun steps =>
    steps.foldl (fun directory step => directory.join ⟨step.spelling⟩) workspace.rootPath

/-- The rules of all ignore files in a directory, those that decide last. There are none unless one
of the files can be read in full. -/
def rulesIn (workspace : Workspace) (tree : FileTree) (directory : Path) : List Rule :=
  let names :=
    (if workspace.respectGitignore then
      -- Later files decide, so the ones that beat the others come last.
      (if directory.Same workspace.rootPath then [".git/info/exclude"] else []) ++ [".gitignore"]
    else []) ++ [".ignore"]
  let files := names.filterMap fun name =>
    (tree.content? (directory.join ⟨name⟩)).map RuleFile.ofContent
  -- One broken file spoils the rules of its directory only if no other file is intact.
  if files.any RuleFile.intact then files.flatMap RuleFile.rules else []

/-- A path as rules in a directory above it see it. -/
def seenFrom (directory path : Path) : Path :=
  match dropPrefix? directory.spelling.toList path.spelling.toList with
  | some ('/' :: rest) => ⟨String.ofList rest⟩
  | some rest => ⟨String.ofList rest⟩
  | none => path

/-- The paths of the directories above a path, innermost first. -/
def parentsOf : (count : Nat) → Path → List Path
  | 0, _ => []
  | count + 1, path =>
    match path.parent? with
    | some parent => parent :: parentsOf count parent
    | none => []

/-- Whether the rules of the innermost directory that says anything about a path ignore it. -/
def isIgnored (workspace : Workspace) (tree : FileTree) (path : Path) : Bool :=
  let absolute := workspace.rootPath.join path
  let verdicts := (workspace.directoriesTo path).reverse.map fun directory =>
    let seen := seenFrom directory absolute
    verdictWithin (workspace.rulesIn tree directory) seen.spelling.toList
      ((parentsOf seen.components.length seen).map fun parent => parent.spelling.toList)
  Verdict.firstOf verdicts == .ignored

/-- Whether a walk would find a file at a path below the root. -/
def accepts (workspace : Workspace) (tree : FileTree) (path : Path) : Bool :=
  workspace.filter.accepts path && !hasHiddenName path && !workspace.isIgnored tree path

end Workspace

end AutoImport
