import AutoImport.Source.Grammar.Statements

/-!
# Exports of a source file

`exportsOf` lists the names that a source file exports, in the order in which they stand, or says on
which line the file is broken. Inside `declare module "name" { … }` every declaration is exported, under
the quoted name.
-/

namespace AutoImport.Source

open Text

structure Export where
  name : String
  kind : SymbolKind
  /-- The quoted module that the name is declared in, if any. -/
  ambientModule : Option String
  deriving DecidableEq, Repr, Inhabited

namespace Item

/-- The names that a declaration introduces, with their kinds. -/
def declared : Item → List (String × SymbolKind)
  | .bindings names => names.map fun name => (name, .variable)
  | .named kind name => [(name, kind)]
  | .ambient declaration => declaration.declared
  | _ => []

/-- The kind of the first declaration of a name. -/
def kindOf (locals : List (String × SymbolKind)) (name : String) : SymbolKind :=
  (locals.lookup name).getD .unknown

/-- The names that an export statement exports, where the file declares `locals`. -/
def exported? (locals : List (String × SymbolKind)) : Item → List (String × SymbolKind)
  | .exported declaration => declaration.declared
  -- What another module declares is not looked up, so its kind stays unknown.
  | .clause fromModule entries =>
    entries.map fun entry =>
      (unquoted entry.exportedName, if fromModule then .unknown else kindOf locals entry.localName)
  | _ => []

def isExport : Item → Bool
  | .exported _ | .clause .. | .byDefault => true
  | _ => false

/-- The exports of the statements in `declare module "name" { … }`. -/
def ambientExports (name : String) (body : List Item) : List Export :=
  body.flatMap fun item =>
    -- A clause inside the quoted module is not matched with what the file declares.
    (if item.isExport then exported? [] item else item.declared).map fun (found, kind) =>
      ⟨found, kind, some name⟩

/-- The exports of one statement of a file that declares `locals`. -/
def exportsAmong (locals : List (String × SymbolKind)) : Item → List Export
  | .ambient (.quotedModule name (some body)) => ambientExports name body
  | item => (exported? locals item).map fun (name, kind) => ⟨name, kind, none⟩

def exports (items : List Item) : List Export :=
  items.flatMap (exportsAmong (items.flatMap declared))

end Item

/-- A depth that no reading of a text of the given length exceeds. -/
def depthFor (length : Nat) : Nat :=
  256 * length + 4096

/-- Reads as many statements as a text begins with, and gives what is left of it. -/
def readStatements (dialect : Dialect) (text : List Char) : List Char × List (Tree Label) :=
  match Peg.run (Phrase.grammar dialect) (depthFor text.length) (.star (.rule .statement)) text [] with
  | some (rest, kept) => (skipGap rest, kept.reverse)
  | none => (text, [])

/-- Whether the braces of a text are closed in turn. -/
def balanced : (depth : Nat) → List Char → Bool
  | depth, [] => depth == 0
  | depth, c :: text =>
    if c == '{' then balanced (depth + 1) text
    else if c == '}' then depth != 0 && balanced (depth - 1) text
    else balanced depth text

/-- The text of the innermost statement that is broken, in a text whose first statement is broken: the
one behind an opening brace where the statements stop short of a closing brace. -/
def brokenWithin (dialect : Dialect) : List Char → Option (List Char)
  | [] => none
  | '{' :: text =>
    match (readStatements dialect text).1 with
    | [] => none
    | '}' :: _ => brokenWithin dialect text
    | rest => some ((brokenWithin dialect text).getD rest)
  | _ :: text => brokenWithin dialect text

/-- The line of a text, counted from one, on which a rest of it begins. -/
def lineOf (text rest : List Char) : Nat :=
  (text.take (text.length - rest.length)).count '\n' + 1

/-- The line of the first broken statement, when `rest` is the text from it on. -/
def brokenLine (dialect : Dialect) (text rest : List Char) : Nat :=
  -- Where the braces do not match, the fault is put at the outermost statement.
  lineOf text (if balanced 0 rest then (brokenWithin dialect rest).getD rest else rest)

/-- The exports of a source text, or the line on which it is broken. -/
def exportsOf (dialect : Dialect) (text : List Char) : Except Nat (List Export) :=
  let (rest, trees) := readStatements dialect (skipInterpreter text)
  if rest.isEmpty then .ok (Item.exports (Item.ofTrees trees))
  else .error (brokenLine dialect text rest)

end AutoImport.Source
