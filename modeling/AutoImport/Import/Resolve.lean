import AutoImport.Import.Header
import AutoImport.Import.Specifier
import AutoImport.Import.Statement
import AutoImport.Symbol.Basic
import AutoImport.Text.Edit

/-!
# Importing a symbol into a document

`ImportStyle.importSymbol` finds the edit that makes a symbol available in a document: nothing where
it is imported already, a new binding in a declaration of the same module, or a new statement.
-/

namespace AutoImport

open Text

/-- Why a symbol cannot be imported. -/
inductive ImportError where
  | selfImport (name : String) (document : Path)
  | ambiguousBinding (name existing : String)
  | unresolved (name : String) (modulePath : Path)
  deriving DecidableEq, Repr

namespace ImportError

def message : ImportError → String
  | .selfImport name document =>
    "\x60" ++ name ++ "\x60 is declared in " ++ document.spelling ++ "; a file cannot import itself"
  | .ambiguousBinding name existing =>
    "\x60" ++ name ++ "\x60 is already bound by an import from \"" ++ existing ++ "\""
  | .unresolved name modulePath =>
    "cannot compute a module specifier for \x60" ++ name ++ "\x60 in " ++ modulePath.spelling

end ImportError

inductive ImportEffect where
  | merged
  | inserted
  | alreadyImported
  deriving DecidableEq, Repr, Inhabited

/-- The edit that imports a symbol, and the specifier that it is imported from. -/
structure ImportEdit where
  effect : ImportEffect
  specifier : String
  edit : TextEdit
  deriving DecidableEq, Repr, Inhabited

/-- The specifier by which a document imports a symbol. -/
def resolveModule (document : Path) (symbol : ExportedSymbol) : Except ImportError String :=
  if symbol.isDeclaredIn document then .error (.selfImport symbol.name document)
  else
    match symbol.specifier with
    | some specifier => .ok specifier
    | none =>
      match relativeSpecifier? document symbol.path with
      | some specifier => .ok specifier
      | none => .error (.unresolved symbol.name symbol.path)

namespace BraceList

/-- The edit that adds a binding after the last one between the braces. Text and comments that stand
there are kept. -/
def add (braces : BraceList) (rendered : String) : TextEdit :=
  let content := trimEnd (blankComments braces.content.toList)
  let offset := braces.start + byteLength content
  if content.isEmpty then ⟨braces.span.start, braces.span.stop, " " ++ rendered ++ " "⟩
  -- A list that ends in a comma goes on ending in one.
  else if content.getLast? == some ',' then .insert offset (" " ++ rendered ++ ",")
  else .insert offset (", " ++ rendered)

end BraceList

namespace ImportDeclaration

/-- Whether a declaration of a module introduces exactly the given binding. -/
def provides (declaration : ImportDeclaration) (specifier : String) (binding : ImportBinding) :
    Bool :=
  declaration.specifier == specifier && declaration.named.any fun other =>
    other.name == binding.name && other.localName == binding.localName

/-- The edit that adds a binding to one of the declarations of its module: in the first braces there
are, else after the first default binding that stands without a namespace. -/
def merge? (declarations : List ImportDeclaration) (rendered : String) : Option TextEdit :=
  match declarations.findSome? braces with
  | some list => some (list.add rendered)
  | none =>
    ((declarations.filter (·.namespaceBinding.isNone)).findSome? defaultBinding).map fun binding =>
      .insert binding.stop (", \x7b " ++ rendered ++ " \x7d")

end ImportDeclaration

/-- The edit that puts a new statement into a document: after the last import, else after the
header. -/
def insertStatement (text : List Char) (declarations : List ImportDeclaration)
    (statement : String) : TextEdit :=
  match declarations.getLast? with
  | some last => .insert last.span.stop ("\n" ++ statement)
  | none =>
    let (before, rest) := splitHeader text
    -- A header at the very end of the document may lack its line feed.
    let lead := if before.isEmpty || before.getLast? == some '\n' then "" else "\n"
    let gap :=
      if rest.isEmpty || startsWith ['\n'] rest || startsWith ['\r', '\n'] rest then "\n"
      else "\n\n"
    .insert (byteLength before) (lead ++ statement ++ gap)

namespace ImportStyle

/-- The edit that imports a symbol into a document with the given text. -/
def importSymbol (style : ImportStyle) (document : Path) (text : List Char)
    (symbol : ExportedSymbol) : Except ImportError ImportEdit := do
  let specifier ← resolveModule document symbol
  let binding : ImportBinding := ⟨symbol.name, none⟩
  let declarations := scanImports text
  match declarations.find? (·.localNames.contains binding.localName) with
  | some declaration =>
    -- An edit of nothing, so that the answer still has a place in the document.
    if declaration.provides specifier binding then
      .ok ⟨.alreadyImported, specifier, .insert declaration.span.stop ""⟩
    else .error (.ambiguousBinding binding.localName declaration.specifier)
  | none =>
    -- A declaration of types cannot take up a value.
    let sameModule := declarations.filter fun other => other.specifier == specifier && !other.typeOnly
    match ImportDeclaration.merge? sameModule binding.render with
    | some edit => .ok ⟨.merged, specifier, edit⟩
    | none =>
      .ok ⟨.inserted, specifier, insertStatement text declarations (style.statement [binding] specifier)⟩

end ImportStyle

end AutoImport
