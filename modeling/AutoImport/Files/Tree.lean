import AutoImport.Files.Content
import AutoImport.Path.Basic

/-!
# Trees of files

A tree of files holds directories, files and symbolic links at locations, which are the names on the
way from the root. A path leads to a location by following the links on its way.
-/

namespace AutoImport

/-- The names on the way from the root to an entry. -/
abbrev Location := List String

inductive FileNode where
  | directory
  | file (content : FileContent)
  | link (target : Path)
  deriving DecidableEq, Repr, Inhabited

namespace FileNode

def isDirectory : FileNode → Bool
  | .directory => true
  | _ => false

def isFile : FileNode → Bool
  | .file _ => true
  | _ => false

end FileNode

structure FileTree where
  entries : List (Location × FileNode)
  deriving Repr, Inhabited

namespace FileTree

def empty : FileTree :=
  ⟨[]⟩

/-- The entry at a location. The root is a directory. -/
def node? (tree : FileTree) (location : Location) : Option FileNode :=
  if location.isEmpty then some .directory else tree.entries.lookup location

/-- Where a walk along components gets to. -/
inductive Reach where
  | arrived (location : Location)
  | lost
  /-- A link in a directory, with the components after it. -/
  | link (directory : Location) (target : Path) (rest : List Component)

/-- Walks along components from a directory up to the first link. -/
def walk (tree : FileTree) (directory : Location) : List Component → Reach
  | [] => .arrived directory
  | .root :: rest => tree.walk [] rest
  | .current :: rest => tree.walk directory rest
  -- The root is its own parent.
  | .parent :: rest => tree.walk directory.dropLast rest
  | .name text :: rest =>
    let location := directory ++ [text]
    match tree.node? location with
    | none => .lost
    | some (.link target) => .link directory target rest
    | some .directory => tree.walk location rest
    -- Nothing lies below a file.
    | some (.file _) => if rest.isEmpty then .arrived location else .lost

/-- The location that components lead to from a directory, when no more than `links` links are on the
way. -/
def follow (tree : FileTree) : (links : Nat) → (directory : Location) → List Component →
    Option Location
  | 0, directory, components =>
    match tree.walk directory components with
    | .arrived location => some location
    | _ => none
  | links + 1, directory, components =>
    match tree.walk directory components with
    | .arrived location => some location
    | .lost => none
    -- A target is seen from the directory of the link; an absolute one starts over by its root.
    | .link directory target rest => tree.follow links directory (target.components ++ rest)

/-- The number of links that a path may lead through. -/
def maxLinks : Nat := 40

/-- The location that an absolute path leads to. -/
def locate? (tree : FileTree) (path : Path) : Option Location :=
  tree.follow maxLinks [] path.components

/-- The path of a location, without links on it. -/
def pathOf (location : Location) : Path :=
  .ofComponents (.root :: location.map Component.name)

/-- The entry that an absolute path leads to. -/
def find? (tree : FileTree) (path : Path) : Option FileNode :=
  (tree.locate? path).bind tree.node?

def isFile (tree : FileTree) (path : Path) : Bool :=
  ((tree.find? path).map FileNode.isFile).getD false

def isDirectory (tree : FileTree) (path : Path) : Bool :=
  ((tree.find? path).map FileNode.isDirectory).getD false

def hasEntry (tree : FileTree) (path : Path) : Bool :=
  (tree.locate? path).isSome

/-- What the file holds that an absolute path leads to. -/
def content? (tree : FileTree) (path : Path) : Option FileContent :=
  match tree.find? path with
  | some (.file content) => some content
  | _ => none

/-- The tree with the entry at a location replaced. -/
def put (tree : FileTree) (location : Location) (node : FileNode) : FileTree :=
  ⟨(tree.entries.filter fun entry => entry.1 != location) ++ [(location, node)]⟩

/-- The beginnings of a list, shortest first. -/
def beginnings {α : Type} (items : List α) : List (List α) :=
  (List.range (items.length + 1)).map items.take

/-- The tree in which the directories on the way to a location exist. -/
def withDirectories (tree : FileTree) (location : Location) : FileTree :=
  (beginnings location).foldl (fun tree directory =>
    if (tree.node? directory).isSome then tree else tree.put directory .directory) tree

/-- The location at which an absolute path creates an entry: the links on its way are followed, and
names that lead nowhere yet are taken as they are. -/
def locationFor (tree : FileTree) (path : Path) : Location :=
  let components := path.components
  match (beginnings components).reverse.findSome? fun start =>
      (tree.follow maxLinks [] start).map fun location => (start.length, location) with
  | some (length, location) =>
    location ++ (components.drop length).filterMap fun component =>
      match component with
      | .name text => some text
      | _ => none
  | none => []

def write (tree : FileTree) (path : Path) (content : FileContent) : FileTree :=
  let location := tree.locationFor path
  (tree.withDirectories location.dropLast).put location (.file content)

def makeDirectory (tree : FileTree) (path : Path) : FileTree :=
  tree.withDirectories (tree.locationFor path)

/-- The location of an entry itself, which may be a link. -/
def entryLocation? (tree : FileTree) (path : Path) : Option Location :=
  match path.components.getLast? with
  | some (.name text) =>
    (tree.follow maxLinks [] path.components.dropLast).map fun directory => directory ++ [text]
  | _ => tree.locate? path

def makeLink (tree : FileTree) (path target : Path) : FileTree :=
  match (path.parent?.map (tree.makeDirectory ·)).getD tree with
  | tree =>
    match tree.entryLocation? path with
    | some location => tree.put location (.link target)
    | none => tree

def remove (tree : FileTree) (path : Path) : FileTree :=
  match tree.entryLocation? path with
  | some location => ⟨tree.entries.filter fun entry => !location.isPrefixOf entry.1⟩
  | none => tree

/-! ## Differences -/

/-- The entries of a tree that another one does not have. -/
def newSince (tree before : FileTree) : List (Location × FileNode) :=
  tree.entries.filter fun (location, node) => decide (before.node? location ≠ some node)

/-- The locations at which a tree has entries and another one has none. -/
def goneIn (tree after : FileTree) : List Location :=
  (tree.entries.filter fun (location, _) => (after.node? location).isNone).map Prod.fst

end FileTree

end AutoImport
