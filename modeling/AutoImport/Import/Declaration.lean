import AutoImport.Text.Cursor
import AutoImport.Import.Comment

/-!
# Import declarations of a document

A document's import declarations are found by their shape alone, at the start of a line or after the
`;` of another statement. `scanImports` lists them with the byte offsets that an edit needs.
-/

namespace AutoImport

open Text

/-- An entry `name` or `name as rename` between the braces of an import. -/
structure ImportBinding where
  name : String
  rename : Option String
  deriving DecidableEq, Repr, Inhabited

namespace ImportBinding

def localName (binding : ImportBinding) : String :=
  binding.rename.getD binding.name

end ImportBinding

structure Span where
  start : Nat
  stop : Nat
  deriving DecidableEq, Repr, Inhabited

/-- The default binding of an import, with the offset where its name ends. -/
structure DefaultBinding where
  name : String
  stop : Nat
  deriving DecidableEq, Repr, Inhabited

/-- The braces of an import: what stands between them, where it begins, and the bindings in it. -/
structure BraceList where
  start : Nat
  content : String
  bindings : List ImportBinding
  deriving DecidableEq, Repr, Inhabited

namespace BraceList

def span (braces : BraceList) : Span :=
  ⟨braces.start, braces.start + byteLength braces.content.toList⟩

end BraceList

/-- An import declaration of a document. -/
structure ImportDeclaration where
  /-- The whole statement, with a `;` that ends it. -/
  span : Span
  specifier : String
  typeOnly : Bool
  defaultBinding : Option DefaultBinding
  namespaceBinding : Option String
  braces : Option BraceList
  deriving DecidableEq, Repr, Inhabited

namespace ImportDeclaration

def named (declaration : ImportDeclaration) : List ImportBinding :=
  (declaration.braces.map BraceList.bindings).getD []

/-- Every name that a declaration introduces. -/
def localNames (declaration : ImportDeclaration) : List String :=
  (declaration.defaultBinding.map DefaultBinding.name).toList ++
    declaration.namespaceBinding.toList ++ declaration.named.map ImportBinding.localName

/-- A declaration that binds nothing runs its module for its effects. -/
def isSideEffect (declaration : ImportDeclaration) : Bool :=
  declaration.defaultBinding.isNone && declaration.namespaceBinding.isNone &&
    declaration.braces.isNone

def identifier? (cursor : Cursor) : Option (String × Cursor) :=
  match cursor.peek? with
  | none => none
  | some c =>
    if isIdentifierStart c then
      let (name, next) := cursor.takeWhile isIdentifierPart
      some (String.ofList name, next)
    else none

/-- Reads a word that blanks have to follow, and those blanks. -/
def wordAndBlanks? (word : List Char) (cursor : Cursor) : Option Cursor := do
  let next ← cursor.expect? word
  let c ← next.peek?
  if isBlank c then some (next.skipWhile isBlank) else none

/-- Reads `name` or `name as rename` up to the end of an entry. -/
def plainBinding? (cursor : Cursor) : Option ImportBinding := do
  let (name, next) ← identifier? cursor
  if next.rest.isEmpty then some ⟨name, none⟩
  else
    let c ← next.peek?
    if !isBlank c then none
    else
      let word ← wordAndBlanks? ['a', 's'] (next.skipWhile isBlank)
      let (rename, last) ← identifier? word
      if last.rest.isEmpty then some ⟨name, some rename⟩ else none

/-- Reads an entry between braces. The word `type` before a binding is passed over; where that leaves
no binding, it is the name. -/
def binding? (entry : List Char) : Option ImportBinding :=
  let cursor : Cursor := ⟨0, entry⟩
  ((wordAndBlanks? ['t', 'y', 'p', 'e'] cursor).bind plainBinding?).or (plainBinding? cursor)

/-- The bindings of a brace list. Comments are passed over, and so are entries that are no binding. -/
def bindings (content : List Char) : List ImportBinding :=
  (((splitOn ',' (blankComments content)).map trim).filter (!·.isEmpty)).filterMap binding?

/-- Reads the default binding of a declaration, and a comma after it. -/
def defaultBinding? (cursor : Cursor) : Option DefaultBinding × Cursor :=
  match identifier? cursor with
  | none => (none, cursor)
  | some (name, next) =>
    -- A word `from` in this place is taken for the default binding.
    (some ⟨name, next.offset⟩, ((next.skipWhile isBlank).skip [',']).skipWhile isBlank)

/-- Reads `* as name` where a star comes next; a star must go on like this. -/
def namespaceBinding? (cursor : Cursor) : Option (Option String × Cursor) :=
  match cursor.expect? ['*'] with
  | none => some (none, cursor)
  | some star => do
    let word ← wordAndBlanks? ['a', 's'] (star.skipWhile isBlank)
    let (name, next) ← identifier? word
    some (some name, next.skipWhile isBlank)

/-- Reads the braces where an opening brace comes next; it must be closed. -/
def braces? (cursor : Cursor) : Option (Option BraceList × Cursor) :=
  match cursor.expect? ['{'] with
  | none => some (none, cursor)
  | some inside => do
    let (content, next) := inside.takeWhile (· != '}')
    let closed ← next.expect? ['}']
    some (some ⟨inside.offset, String.ofList content, bindings content⟩, closed.skipWhile isBlank)

/-- Reads a quoted specifier, on one line and with either quotation mark at either end. -/
def specifier? (cursor : Cursor) : Option (String × Cursor) := do
  let opening ← cursor.peek?
  if !isQuote opening then none
  else
    let inside ← cursor.expect? [opening]
    -- The two quotation marks need not be the same.
    let (text, next) := inside.takeWhile fun c => !isQuote c && c != '\n'
    let closing ← next.peek?
    if isQuote closing then
      let closed ← next.expect? [closing]
      some (String.ofList text, closed)
    else none

/-- Reads a declaration that begins at `start` from its bindings on. -/
def clauses? (start : Nat) (typeOnly : Bool) (cursor : Cursor) :
    Option (ImportDeclaration × Cursor) := do
  let (defaultName, cursor) := defaultBinding? cursor
  let (namespaceName, cursor) ← namespaceBinding? cursor
  let (braces, cursor) ← braces? cursor
  -- The word is not asked for: with no bindings the specifier stands alone.
  let cursor := ((cursor.expect? ['f', 'r', 'o', 'm']).map (·.skipWhile isBlank)).getD cursor
  let (specifier, cursor) ← specifier? cursor
  let cursor := (cursor.skipWhile isInlineBlank).skip [';']
  some (⟨⟨start, cursor.offset⟩, specifier, typeOnly, defaultName, namespaceName, braces⟩, cursor)

/-- Reads a declaration that begins with the word `import`. The word `type` after it marks a
declaration of types; where that leaves no declaration, it is the default binding. -/
def read? (cursor : Cursor) : Option (ImportDeclaration × Cursor) := do
  let next ← cursor.expect? ['i', 'm', 'p', 'o', 'r', 't']
  -- `imports` and `import_` are words of their own.
  if (next.peek?.map isWordPart).getD false then none
  else
    let head := next.skipWhile isBlank
    ((wordAndBlanks? ['t', 'y', 'p', 'e'] head).bind (clauses? cursor.offset true)).or
      (clauses? cursor.offset false head)

/-- Reads a declaration at a place where one may begin: at the start of a line or from a `;` on,
after blanks on the same line. -/
def readAnchored? (atLineStart : Bool) (cursor : Cursor) : Option (ImportDeclaration × Cursor) :=
  match (if atLineStart then read? (cursor.skipWhile isInlineBlank) else none) with
  | some found => some found
  | none => (cursor.expect? [';']).bind fun next => read? (next.skipWhile isInlineBlank)

/-- How many characters lie between a place and the place where the search for the next declaration
goes on, which is before a `;` that ends the declaration just found. -/
def charactersUntil (start : List Char) (next : Cursor) : Nat :=
  let count := start.length - next.rest.length
  -- The `;` may open the next declaration, so the search must still meet it.
  if (start.take count).getLast? == some ';' then count - 1 else count

/-- The declarations of the rest of a document, after `skip` characters that belong to a declaration
found before. -/
def scanFrom : (skip : Nat) → (atLineStart : Bool) → (offset : Nat) → List Char →
    List ImportDeclaration
  | _, _, _, [] => []
  | skip + 1, _, offset, c :: text => scanFrom skip (c == '\n') (offset + c.utf8Size) text
  | 0, atLineStart, offset, c :: text =>
    match readAnchored? atLineStart ⟨offset, c :: text⟩ with
    | none => scanFrom 0 (c == '\n') (offset + c.utf8Size) text
    | some (found, next) =>
      found :: scanFrom (charactersUntil (c :: text) next - 1) (c == '\n') (offset + c.utf8Size) text

end ImportDeclaration

/-- The import declarations of a document, in order. -/
def scanImports (text : List Char) : List ImportDeclaration :=
  ImportDeclaration.scanFrom 0 true 0 text

end AutoImport
