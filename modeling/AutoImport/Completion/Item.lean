import AutoImport.Symbol.Basic

/-!
# Completion items

What an editor offers for a symbol or a module: a label, the icon to show, and where it comes from.
-/

namespace AutoImport

inductive CompletionCategory where
  | classLike
  | interface
  | variable
  | file
  deriving DecidableEq, Repr

namespace CompletionCategory

def ofKind : SymbolKind → CompletionCategory
  | .classLike => .classLike
  | .interface => .interface
  | .function | .variable => .variable
  | .unknown => .file

def label : CompletionCategory → String
  | .classLike => "class"
  | .interface => "interface"
  | .variable => "variable"
  | .file => "file"

end CompletionCategory

/-- Something that an editor offers to complete. -/
structure CompletionItem where
  label : String
  category : CompletionCategory
  /-- Where the item comes from: a package specifier or a path of the workspace. -/
  detail : String
  symbol : Option ExportedSymbol
  deriving DecidableEq, Repr

namespace CompletionItem

def ofSymbol (symbol : ExportedSymbol) : CompletionItem :=
  ⟨symbol.name, .ofKind symbol.kind, symbol.specifier.getD symbol.path.spelling, some symbol⟩

def ofModule (specifier : String) : CompletionItem :=
  ⟨specifier, .file, specifier, none⟩

end CompletionItem

end AutoImport
