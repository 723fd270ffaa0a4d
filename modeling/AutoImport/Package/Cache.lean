import AutoImport.Files.Tree
import AutoImport.Package.Basic

/-!
# Remembered packages

The manifest of a package is read once, and what it said is remembered until everything is forgotten.
-/

namespace AutoImport

/-- The packages that were looked up, by their directories. A directory without a usable manifest is
remembered too. -/
structure PackageCache where
  known : List (List String × Option Package)
  deriving DecidableEq, Repr, Inhabited

namespace PackageCache

def empty : PackageCache :=
  ⟨[]⟩

def readPackage? (tree : FileTree) (root : Path) (directory : List String) : Option Package := do
  let manifest := Path.ofComponents (directory.map Component.name ++ [.name "package.json"])
  let content ← tree.content? (root.join manifest)
  let text ← content.text?
  let manifest ← Manifest.ofText? text
  Package.ofManifest? manifest

/-- The package in a directory of the workspace, as it is remembered or else read now. -/
def lookUp (cache : PackageCache) (tree : FileTree) (root : Path) (directory : List String) :
    Option Package × PackageCache :=
  match cache.known.lookup directory with
  | some package? => (package?, cache)
  | none =>
    let package? := readPackage? tree root directory
    (package?, ⟨(directory, package?) :: cache.known⟩)

/-- The specifier by which a file of the workspace is imported when it belongs to an installed
package. -/
def specifierFor (cache : PackageCache) (tree : FileTree) (root path : Path) :
    Option String × PackageCache :=
  match PackageFile.ofPath? path with
  | none => (none, cache)
  | some found =>
    let (package?, cache) := cache.lookUp tree root found.directory
    (package?.map (·.specifier found.subPath), cache)

end PackageCache

end AutoImport
