import AutoImport.Symbol.Basic

/-!
# Symbols filed by a key

`Buckets` files symbols by a key, in the order of the keys. A key without symbols has no bucket, so two
collections that hold the same symbols under the same keys have the same keys.
-/

namespace AutoImport

structure Buckets (Key : Type) where
  entries : List (Key × List ExportedSymbol)
  deriving Repr, Inhabited

namespace Buckets

variable {Key : Type} [Ord Key]

def empty : Buckets Key :=
  ⟨[]⟩

def find (buckets : Buckets Key) (key : Key) : List ExportedSymbol :=
  match buckets.entries.find? fun entry => compare key entry.1 == .eq with
  | some (_, symbols) => symbols
  | none => []

def keys (buckets : Buckets Key) : List Key :=
  buckets.entries.map Prod.fst

def symbols (buckets : Buckets Key) : List ExportedSymbol :=
  buckets.entries.flatMap Prod.snd

/-- A bucket in front of others, unless it is empty. -/
def consNonempty (key : Key) (symbols : List ExportedSymbol)
    (entries : List (Key × List ExportedSymbol)) : List (Key × List ExportedSymbol) :=
  if symbols.isEmpty then entries else (key, symbols) :: entries

/-- Entries in which the symbols of one key are changed. -/
def adjustEntries (change : List ExportedSymbol → List ExportedSymbol) (key : Key) :
    List (Key × List ExportedSymbol) → List (Key × List ExportedSymbol)
  | [] => consNonempty key (change []) []
  | (other, symbols) :: entries =>
    match compare key other with
    -- The keys are in order, so none further on is the one looked for.
    | .lt => consNonempty key (change []) ((other, symbols) :: entries)
    | .eq => consNonempty other (change symbols) entries
    | .gt => (other, symbols) :: adjustEntries change key entries

def adjust (buckets : Buckets Key) (key : Key)
    (change : List ExportedSymbol → List ExportedSymbol) : Buckets Key :=
  ⟨adjustEntries change key buckets.entries⟩

end Buckets

end AutoImport
