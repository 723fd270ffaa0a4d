import AutoImport.Path.Module
import AutoImport.Path.Os

/-!
# Relative specifiers

The specifier by which a document reaches a module of the same workspace: the way up from the
document's directory to what the two paths share, and down to the module.
-/

namespace AutoImport

open Text

/-- Components that two lists share at their start are left out of both. -/
def dropShared : List Component → List Component → List Component × List Component
  | left :: lefts, right :: rights =>
    if left = right then dropShared lefts rights else (left :: lefts, right :: rights)
  | lefts, rights => (lefts, rights)

/-- A step down as a segment of a specifier. A name that is no text has none. -/
def stepDown? : Component → Option (List Char)
  | .name name => (OsPath.readName? name).map String.toList
  | .parent => some ['.', '.']
  | _ => none

/-- A specifier of the given segments, without the source extension and without a last `index`. It
begins with a `.` or with `..`. -/
def specifierOf (segments : List (List Char)) : String :=
  let stripped := stripSourceExtension (joinWith ['/'] segments)
  let anchored := if startsWith ['.', '.', '/'] stripped then stripped else '.' :: '/' :: stripped
  String.ofList (collapseIndex anchored)

/-- The specifier by which a document imports a module, both seen from the same root or both
absolute. There is none when the way up would lead out of a `..`, when a name on the way down is no
text, or when the module's file name is no more than a source extension. -/
def OsPath.relativeSpecifier? (document modulePath : OsPath) : Option String := do
  let document := document.byLetters
  let modulePath := modulePath.byLetters
  if document.isAbsolute != modulePath.isAbsolute then none
  else
    let target := Path.normalizeComponents modulePath.components
    let fileName ← (Path.ofComponents target).fileName? >>= readName?
    if !hasFileStem fileName then none
    else
      let source := Path.normalizeComponents document.components
      let (up, down) := dropShared ((Path.parentComponents? source).getD []) target
      -- One `..` for every name that is left; what a `..` leads out of has no name to step back to.
      if !up.all Component.isName then none
      else
        let steps ← down.mapM stepDown?
        some (specifierOf (up.map (fun _ => ['.', '.']) ++ steps))

/-- The specifier between two paths that are text. -/
def relativeSpecifier? (document modulePath : Path) : Option String :=
  OsPath.relativeSpecifier? (.ofText document.spelling) (.ofText modulePath.spelling)

end AutoImport
