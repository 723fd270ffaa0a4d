import AutoImport.Package.Manifest
import AutoImport.Path.Module

/-!
# Installed packages

The specifiers by which the files of an installed package are imported: the entry of a package is the
package itself, and other files are named from the directory of the entry.
-/

namespace AutoImport

open Text

structure Package where
  name : String
  /-- The module of the entry, from the directory of the package. -/
  entryKey : List Char
  /-- The directory of the entry, from the directory of the package. -/
  entryDirectory : List Char
  deriving DecidableEq, Repr, Inhabited

namespace Package

def dropCurrent : List Char → List Char
  | '.' :: '/' :: rest => dropCurrent rest
  | text => text

/-- The module that a file of a package is, from the directory of the package. -/
def keyOf (file : List Char) : List Char :=
  collapseIndex (stripSourceExtension file)

/-- What precedes the last slash of a text; nothing where there is no slash. -/
def directoryOf (file : List Char) : List Char :=
  ((file.reverse.dropWhile (· != '/')).drop 1).reverse

/-- The package that a manifest describes, if it gives a name. -/
def ofManifest? (manifest : Manifest) : Option Package := do
  let name ← manifest.name
  if name.isEmpty then none
  else
    let entry := dropCurrent manifest.entry.toList
    some ⟨name, keyOf entry, directoryOf entry⟩

/-- The rest of a module below the directory of the entry, or the whole of it when it lies elsewhere. -/
def belowEntry (package : Package) (key : List Char) : List Char :=
  if package.entryDirectory.isEmpty then key
  else
    match dropPrefix? package.entryDirectory key with
    -- Only whole segments count: `lib` is not above `library`.
    | some ('/' :: rest) => rest
    | _ => key

/-- The specifier of a file of a package, given from the directory of the package. -/
def specifier (package : Package) (file : List Char) : String :=
  let key := keyOf file
  let rest := collapseIndex (package.belowEntry key)
  if key == package.entryKey || rest.isEmpty || rest == ['i', 'n', 'd', 'e', 'x'] then package.name
  else package.name ++ "/" ++ String.ofList rest

end Package

/-- A file of an installed package: the names on the way to the package, and those in it. -/
structure PackageFile where
  directory : List String
  file : List String
  deriving DecidableEq, Repr, Inhabited

namespace PackageFile

/-- The directory that packages are installed in. -/
def modulesName : String := "node_modules"

def namesOf (path : Path) : List String :=
  path.components.filterMap fun component =>
    match component with
    | .name text => some text
    | _ => none

/-- The number of names that a package directory has below the one of installed packages. -/
def packageDepth (name : String) : Nat :=
  if startsWith ['@'] name.toList then 2 else 1

/-- The file of an installed package that a path of the workspace leads to. The last directory of
installed packages on the way counts. -/
def ofPath? (path : Path) : Option PackageFile :=
  let names := namesOf path
  let inside := (names.reverse.takeWhile (· != modulesName)).reverse
  -- No directory of installed packages is on the way.
  if inside.length == names.length then none
  else
    match inside with
    | [] => none
    | first :: _ =>
      let depth := packageDepth first
      if inside.length ≤ depth then none
      else some ⟨names.take (names.length - inside.length) ++ inside.take depth, inside.drop depth⟩

def subPath (found : PackageFile) : List Char :=
  joinWith ['/'] (found.file.map String.toList)

end PackageFile

end AutoImport
