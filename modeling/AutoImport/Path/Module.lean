import AutoImport.Path.Basic

/-!
# Source files as modules

A module is named by the path of its file without the source extension, and an `index` file stands
for its directory.
-/

namespace AutoImport

open Text

/-- The endings of source files; of two that fit a name the longer one comes first. -/
def sourceExtensions : List String :=
  [".d.mts", ".d.cts", ".d.ts", ".tsx", ".mts", ".cts", ".ts", ".jsx", ".mjs", ".cjs", ".js"]

/-- What precedes a source extension, when that ends in a file name of its own. -/
def stem? (path : List Char) (extension : String) : Option (List Char) :=
  match dropSuffix? extension.toList path with
  | some stem => if stem.isEmpty || endsWith ['/'] stem then none else some stem
  | none => none

/-- A path without its source extension, if it has one. -/
def stripSourceExtension (path : List Char) : List Char :=
  (sourceExtensions.findSome? (stem? path)).getD path

/-- Whether a file name is more than a source extension. -/
def hasFileStem (fileName : String) : Bool :=
  !fileName.isEmpty && !sourceExtensions.contains fileName

/-- A specifier whose last segment `index` is left out when another segment precedes it. -/
def collapseIndex (specifier : List Char) : List Char :=
  match dropSuffix? ['/', 'i', 'n', 'd', 'e', 'x'] specifier with
  | some parent => if parent.isEmpty then specifier else parent
  | none => specifier

namespace Component

/-- A component as a segment of a module name. The root is the empty segment before a slash. -/
def segment? : Component → Option (List Char)
  | .root => some []
  | .current => none
  | .parent => some ['.', '.']
  | .name text => some text.toList

end Component

namespace Path

/-- The components of a path with single slashes between them. -/
def slashed (path : Path) : List Char :=
  joinWith ['/'] (path.components.filterMap Component.segment?)

/-- The name of the module that a file of the workspace is. -/
def moduleKey (path : Path) : String :=
  String.ofList (collapseIndex (stripSourceExtension path.slashed))

end Path

end AutoImport
