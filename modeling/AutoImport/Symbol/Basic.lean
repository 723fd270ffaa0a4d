import AutoImport.Path.Module

/-!
# Exported symbols

A symbol is a name that a file exports, with the kind of its declaration and, when the file belongs
to a package, the specifier of that package.
-/

namespace AutoImport

open Text

inductive SymbolKind where
  | classLike
  | interface
  | function
  | variable
  | unknown
  deriving DecidableEq, Repr, Inhabited

namespace SymbolKind

/-- The kind that a description of a declaration speaks of; the first kind mentioned here wins. -/
def classify (description : String) : SymbolKind :=
  let words := asciiLowercase description.toList
  if contains "class".toList words then .classLike
  else if contains "interface".toList words then .interface
  else if contains "function".toList words then .function
  -- `lexical` as in the grammar's name for `let` and `const`.
  else if contains "variable".toList words || contains "lexical".toList words then .variable
  else .unknown

def label : SymbolKind → String
  | .classLike => "class"
  | .interface => "interface"
  | .function => "function"
  | .variable => "variable"
  | .unknown => "unknown"

/-- The place of a kind in the order of kinds. -/
def rank : SymbolKind → Nat
  | .classLike => 0
  | .interface => 1
  | .function => 2
  | .variable => 3
  | .unknown => 4

end SymbolKind

structure ExportedSymbol where
  name : String
  kind : SymbolKind
  /-- The file that exports the name, seen from the workspace root. -/
  path : Path
  /-- The specifier of the package that the file belongs to, if any. -/
  specifier : Option String
  deriving DecidableEq, Repr, Inhabited

namespace ExportedSymbol

/-- The module through which a symbol is reached. -/
def moduleKey (symbol : ExportedSymbol) : String :=
  symbol.specifier.getD symbol.path.moduleKey

/-- Whether a symbol is exported by the given file. -/
def isDeclaredIn (symbol : ExportedSymbol) (document : Path) : Bool :=
  decide (symbol.path.Same document)

end ExportedSymbol

end AutoImport
