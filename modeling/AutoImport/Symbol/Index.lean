import AutoImport.Symbol.Buckets
import AutoImport.Text.Lowercase

/-!
# The symbol index

The index of all exported symbols of a workspace, filed by name, by module and by file. Its operations
replace or remove the symbols of one file; its queries look names and modules up.
-/

namespace AutoImport

open Text

namespace ExportedSymbol

/-- Symbols in the order of their names, and of their files where the names agree. -/
def compareByName (left right : ExportedSymbol) : Ordering :=
  (compareOfLessAndEq left.name right.name).then (left.path.compare right.path)

/-- A symbol among symbols in the order of their names. -/
def insertByName (symbol : ExportedSymbol) : List ExportedSymbol → List ExportedSymbol
  | [] => [symbol]
  | other :: symbols =>
    if other.compareByName symbol == .lt then other :: insertByName symbol symbols
    else symbol :: other :: symbols

end ExportedSymbol

/-- How a query is compared with names. -/
inductive MatchMode where
  /-- The name is the query. -/
  | exact
  /-- The name contains the query, or begins with it, without regard to case. -/
  | anyCase
  deriving DecidableEq, Repr

namespace MatchMode

/-- Whether a name answers a query. An exact query disregards `fromStart`. -/
def fits (mode : MatchMode) (fromStart : Bool) (query name : String) : Bool :=
  match mode with
  | .exact => name == query
  | .anyCase =>
    if fromStart then startsWith (lowercase query.toList) (lowercase name.toList)
    else contains (lowercase query.toList) (lowercase name.toList)

end MatchMode

/-- How many symbols, modules and files an index holds. -/
structure IndexStats where
  symbols : Nat
  modules : Nat
  files : Nat
  deriving DecidableEq, Repr

/-- What an index holds, in an order that does not depend on its history. -/
structure IndexSnapshot where
  symbols : List ExportedSymbol
  modules : List String
  deriving DecidableEq, Repr

structure SymbolIndex where
  byName : Buckets String
  byModule : Buckets String
  byFile : Buckets Path
  symbolCount : Nat
  deriving Repr, Inhabited

namespace SymbolIndex

def empty : SymbolIndex :=
  ⟨.empty, .empty, .empty, 0⟩

/-- The index without the given symbol of a file and all others of its name and module in that file. -/
def forget (path : Path) (index : SymbolIndex) (symbol : ExportedSymbol) : SymbolIndex :=
  let keepOthers := List.filter fun (other : ExportedSymbol) => !other.isDeclaredIn path
  { index with
    byName := index.byName.adjust symbol.name keepOthers
    byModule := index.byModule.adjust symbol.moduleKey keepOthers }

def insert (index : SymbolIndex) (symbol : ExportedSymbol) : SymbolIndex :=
  { byName := index.byName.adjust symbol.name (· ++ [symbol])
    byModule := index.byModule.adjust symbol.moduleKey symbol.insertByName
    byFile := index.byFile.adjust symbol.path (· ++ [symbol])
    symbolCount := index.symbolCount + 1 }

def symbolsInFile (index : SymbolIndex) (path : Path) : List ExportedSymbol :=
  index.byFile.find path

def removeFile (index : SymbolIndex) (path : Path) : SymbolIndex :=
  let symbols := index.symbolsInFile path
  let index := symbols.foldl (forget path) index
  { index with
    -- Here the bucket goes as a whole, whatever the fold has met.
    byFile := index.byFile.adjust path fun _ => []
    symbolCount := index.symbolCount - symbols.length }

/-- The symbols that a file contributes: of each name the first, declared in that file. -/
def attributed (path : Path) (symbols : List ExportedSymbol) : List ExportedSymbol :=
  (firstOfName [] symbols).map fun symbol => { symbol with path := path }
where
  /-- Of each name that has not been seen the first symbol. -/
  firstOfName (seen : List String) : List ExportedSymbol → List ExportedSymbol
    | [] => []
    | symbol :: symbols =>
      if seen.contains symbol.name then firstOfName seen symbols
      else symbol :: firstOfName (symbol.name :: seen) symbols

/-- The index in which a file has the given symbols and no others. -/
def replaceFile (index : SymbolIndex) (path : Path) (symbols : List ExportedSymbol) : SymbolIndex :=
  (attributed path symbols).foldl insert (index.removeFile path)

/-- The symbols that a query names: those of exactly that name first, then by name and file. -/
def getSymbols (index : SymbolIndex) (query : String) (fromStart : Bool) (mode : MatchMode) :
    List ExportedSymbol :=
  let found := index.byName.entries.filter fun (name, _) => mode.fits fromStart query name
  let inOrder (left right : ExportedSymbol) : Bool :=
    if left.name == query then right.name != query || left.compareByName right != .gt
    else right.name != query && left.compareByName right != .gt
  (found.flatMap Prod.snd).mergeSort inOrder

/-- The modules that a query names: the module of exactly that name first, then in order. -/
def getModules (index : SymbolIndex) (query : String) (fromStart : Bool) (mode : MatchMode) :
    List String :=
  let found := index.byModule.keys.filter (mode.fits fromStart query)
  found.filter (· == query) ++ found.filter (· != query)

/-- The symbols that are reached through a module. -/
def getModule? (index : SymbolIndex) (specifier : String) : Option (List ExportedSymbol) :=
  match index.byModule.find specifier with
  | [] => none
  | symbols => some symbols

def listFiles (index : SymbolIndex) : List Path :=
  index.byFile.keys

def stats (index : SymbolIndex) : IndexStats :=
  ⟨index.symbolCount, index.byModule.keys.length, index.byFile.keys.length⟩

def isEmpty (index : SymbolIndex) : Bool :=
  index.symbolCount == 0

def snapshot (index : SymbolIndex) : IndexSnapshot :=
  ⟨index.byName.symbols.mergeSort inOrder, index.byModule.keys⟩
where
  /-- Symbols by name, file, kind and package, those without a package first. -/
  inOrder (left right : ExportedSymbol) : Bool :=
    ((left.compareByName right).then
      ((compareOfLessAndEq left.kind.rank right.kind.rank).then
        (bySpecifier left.specifier right.specifier))) != .gt
  bySpecifier : Option String → Option String → Ordering
    | none, none => .eq
    | none, some _ => .lt
    | some _, none => .gt
    | some left, some right => compareOfLessAndEq left right

/-- Whether the filing by name and the filing by module hold the same symbols, as many as are
counted. -/
def isConsistent (index : SymbolIndex) : Bool :=
  let inOrder (left right : ExportedSymbol) : Bool := left.compareByName right != .gt
  -- Each filing is sorted alike, so equal contents meet pair by pair.
  let named := index.byName.symbols.mergeSort inOrder
  let filed := (index.byModule.entries.flatMap fun (key, symbols) =>
    symbols.filter fun symbol => symbol.moduleKey == key).mergeSort inOrder
  named.length == filed.length &&
    (named.zip filed).all (fun (left, right) => left.compareByName right == .eq) &&
    index.byModule.symbols.length == index.symbolCount && named.length == index.symbolCount

end SymbolIndex

end AutoImport
