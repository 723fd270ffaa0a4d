import AutoImport.Text.Search

/-!
# Paths

A path is kept as it was spelled, and is compared, ordered and taken apart by its components:
doubled slashes, a slash at the end and a `.` after the first component make no difference, while a
leading `.` is a component of its own.
-/

namespace AutoImport

open Text

inductive Component where
  | root
  | current
  | parent
  | name (text : String)
  deriving DecidableEq, Repr, Inhabited

namespace Component

/-- The component that a piece between slashes stands for, other than at the start of a path. -/
def ofPiece? (piece : List Char) : Option Component :=
  if piece == [] || piece == ['.'] then none
  else if piece == ['.', '.'] then some .parent
  else some (.name (String.ofList piece))

/-- A component as it is spelled in a path. -/
def spelling : Component → String
  | .root => "/"
  | .current => "."
  | .parent => ".."
  | .name text => text

/-- The place of the kinds of components in their order. -/
def rank : Component → Nat
  | .root => 0
  | .current => 1
  | .parent => 2
  | .name _ => 3

/-- Components in order: the root, `.`, `..`, then the names by their characters. -/
def compare : Component → Component → Ordering
  | .name left, .name right => compareOfLessAndEq left right
  | left, right => compareOfLessAndEq left.rank right.rank

def isName : Component → Bool
  | .name _ => true
  | _ => false

end Component

structure Path where
  spelling : String
  deriving DecidableEq, Repr, Inhabited

namespace Path

/-- The components of a path that is spelled by the given characters. -/
def componentsOf (spelling : List Char) : List Component :=
  match splitOn '/' spelling with
  | [] => []
  | first :: pieces =>
    let start :=
      match first, pieces with
      | [], [] => []
      | [], _ => [Component.root]
      -- Only in first place does a `.` count.
      | ['.'], _ => [Component.current]
      | piece, _ => (Component.ofPiece? piece).toList
    start ++ pieces.filterMap Component.ofPiece?

def components (path : Path) : List Component :=
  componentsOf path.spelling.toList

def Same (left right : Path) : Prop :=
  left.components = right.components

instance (left right : Path) : Decidable (left.Same right) :=
  inferInstanceAs (Decidable (left.components = right.components))

/-- The lexicographic order of component lists. -/
def compareComponents : List Component → List Component → Ordering
  | [], [] => .eq
  | [], _ :: _ => .lt
  | _ :: _, [] => .gt
  | left :: lefts, right :: rights => (left.compare right).then (compareComponents lefts rights)

protected def compare (left right : Path) : Ordering :=
  compareComponents left.components right.components

instance : Ord Path := ⟨Path.compare⟩

/-- A path starts at the root of the file system when its spelling starts with a slash. -/
def isAbsolute (path : Path) : Bool :=
  startsWith ['/'] path.spelling.toList

/-- The path that continues `base` by `path`; an absolute `path` stands on its own. -/
def join (base path : Path) : Path :=
  if path.isAbsolute || base.spelling.isEmpty then path
  else if endsWith ['/'] base.spelling.toList then ⟨base.spelling ++ path.spelling⟩
  else ⟨base.spelling ++ "/" ++ path.spelling⟩

/-- The path with the given components, in its plainest spelling. -/
def ofComponents (components : List Component) : Path :=
  match components with
  | .root :: rest =>
    ⟨String.ofList ('/' :: joinWith ['/'] (rest.map fun component => component.spelling.toList))⟩
  | _ => ⟨String.ofList (joinWith ['/'] (components.map fun component => component.spelling.toList))⟩

/-- The last component of a path when it is a name. -/
def fileName? (path : Path) : Option String :=
  match path.components.getLast? with
  | some (.name text) => some text
  | _ => none

/-- What follows the last dot of the file name. A dot at its start begins no extension. -/
def extension? (path : Path) : Option String := do
  let name ← path.fileName?
  -- `rest` is the last dot with what precedes it, so a single character is a dot at the start.
  let (reversed, rest) := spanWhile (· != '.') name.toList.reverse
  if rest.length ≤ 1 then none else some (String.ofList reversed.reverse)

/-- Components without the last one. The root and the empty path have nothing above them. -/
def parentComponents? (components : List Component) : Option (List Component) :=
  match components.getLast? with
  | none => none
  | some .root => none
  | some _ => some components.dropLast

/-- What is left of a list after a list that it begins with. -/
def dropStart? {α : Type} [DecidableEq α] : (start list : List α) → Option (List α)
  | [], list => some list
  | _ :: _, [] => none
  | first :: start, item :: list => if first = item then dropStart? start list else none

/-- Whether a path lies at or below a directory. -/
def isWithin (path directory : Path) : Bool :=
  (dropStart? directory.components path.components).isSome

def isIdlePiece (piece : List Char) : Bool :=
  piece == [] || piece == ['.']

/-- The pieces that are left after the given number of components, and after idle ones. -/
def dropPieces : Nat → List (List Char) → List (List Char)
  | 0, pieces => pieces.dropWhile isIdlePiece
  | count + 1, pieces =>
    match pieces.dropWhile isIdlePiece with
    | [] => []
    | _ :: rest => dropPieces count rest

/-- The spelling that is left of a path after its first components, without idle pieces at the
ends. -/
def spellingAfter (count : Nat) (spelling : List Char) : List Char :=
  match splitOn '/' spelling, count with
  | [], _ => []
  | first :: pieces, 0 =>
    match first, dropEndWhile isIdlePiece pieces with
    | [], [] => if pieces.isEmpty then [] else ['/']
    | _, kept => joinWith ['/'] (first :: kept)
  | _ :: pieces, count + 1 =>
    joinWith ['/'] (dropEndWhile isIdlePiece (dropPieces count pieces))

/-- A path without its last component, as it was spelled. -/
def parent? (path : Path) : Option Path :=
  match path.components.getLast? with
  | none | some .root => none
  | some _ =>
    match splitOn '/' path.spelling.toList with
    | [] => none
    | first :: pieces =>
      let kept := dropEndWhile isIdlePiece (dropEndWhile isIdlePiece pieces).dropLast
      match first, (dropEndWhile isIdlePiece pieces).isEmpty, kept with
      | _, true, _ => some ⟨""⟩
      | [], false, [] => some ⟨"/"⟩
      | _, false, _ => some ⟨String.ofList (joinWith ['/'] (first :: kept))⟩

/-- The rest of a path below a directory, as it was spelled. -/
def below? (path directory : Path) : Option Path :=
  if path.isWithin directory then
    some ⟨String.ofList (spellingAfter directory.components.length path.spelling.toList)⟩
  else none

/-- A path as seen from a directory above it, or as it is when the directory is not above it. -/
def relativeTo (path directory : Path) : Path :=
  (path.below? directory).getD path

/-- Components without `.`, and with `..` taking back the name before it where there is one. -/
def normalizeComponents (components : List Component) : List Component :=
  components.foldl step []
where
  /-- The normal form of a normal form that is continued by one component. -/
  step (done : List Component) : Component → List Component
    | .current => done
    | .parent =>
      match done.getLast? with
      | some (.name _) => done.dropLast
      | _ => done ++ [.parent]
    -- A root starts the path over.
    | .root => [.root]
    | .name text => done ++ [.name text]

/-- A path with `.` and `..` resolved by spelling alone. -/
def normalize (path : Path) : Path :=
  ofComponents (normalizeComponents path.components)

end Path

end AutoImport
