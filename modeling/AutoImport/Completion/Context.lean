import AutoImport.Text.Search

/-!
# What a cursor asks for

The text around a cursor tells whether a module name or a symbol is being typed there.
-/

namespace AutoImport

open Text

inductive CompletionContext where
  /-- A module; the characters from `start` to `stop` of the line are to be replaced. -/
  | module (query : String) (start stop : Nat)
  /-- The symbol that the cursor stands in. -/
  | symbol (name : String)
  deriving DecidableEq, Repr

/-- A character of a name around a cursor. -/
def isNamePart (c : Char) : Bool :=
  isAlphanumeric c || c == '_' || c == '$'

/-- A line that reads like an import: what is typed after the last quote in front of the cursor names
a module. A quote at the start of the line does not count. -/
def moduleContext? (line : List Char) (cursor : Nat) : Option CompletionContext :=
  let before := line.take cursor
  let query := (before.reverse.takeWhile fun c => !isQuote c).reverse
  -- A quote was met, and something stands in front of it.
  if query.length + 1 < before.length then
    some (.module (String.ofList query) (before.length - query.length) before.length)
  else none

def symbolContext? (line : List Char) (cursor : Nat) : Option CompletionContext :=
  let head := ((line.take cursor).reverse.takeWhile isNamePart).reverse
  let tail := (line.drop cursor).takeWhile isNamePart
  if head.isEmpty && tail.isEmpty then none else some (.symbol (String.ofList (head ++ tail)))

/-- What the cursor after the first `column` characters of a line asks for. A line with the words
`import` and `from` asks for modules only. -/
def completionContext? (line : List Char) (column : Nat) : Option CompletionContext :=
  if contains ['i', 'm', 'p', 'o', 'r', 't'] line && contains ['f', 'r', 'o', 'm'] line then
    moduleContext? line column
  else symbolContext? line column

end AutoImport
