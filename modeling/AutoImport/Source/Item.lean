import AutoImport.Source.Peg
import AutoImport.Source.Lexical
import AutoImport.Symbol.Basic

/-!
# Statements of a source file

Of the statements of a source file only those matter that declare or export a name. An `Item` is such
a statement, or stands for one that does neither.
-/

namespace AutoImport.Source

open Text

/-- What the grammar keeps of a source file. -/
inductive Label where
  | bindings
  | declares (kind : SymbolKind)
  | quotedModule
  | spaceStatement
  | body
  | ambient
  | exported
  | clause
  | entry
  | byDefault
  | fromModule
  | unmarkedEnd
  | name
  | quotedName
  deriving DecidableEq, Repr

/-- An entry of an export clause: the local name and the name that it is exported by, as spelled. -/
structure ExportEntry where
  localName : String
  exportedName : String
  deriving DecidableEq, Repr

/-- A statement, as far as it declares or exports names. -/
inductive Item where
  /-- Variables; a pattern that takes a value apart is left out. -/
  | bindings (names : List String)
  | named (kind : SymbolKind) (name : String)
  /-- A module whose name is quoted, with its statements when it has a body. -/
  | quotedModule (name : String) (body : Option (List Item))
  | ambient (declaration : Item)
  | exported (declaration : Item)
  | byDefault
  /-- An export clause, of this file's names or of another module's. -/
  | clause (fromModule : Bool) (entries : List ExportEntry)
  | other
  deriving Inhabited

namespace Item

/-- The texts of the leaves with a given label. -/
def leaves (label : Label) (trees : List (Tree Label)) : List String :=
  trees.filterMap fun tree =>
    match tree with
    | .leaf found text => if found = label then some (String.ofList (skipGap text)) else none
    | .branch .. => none

def entryOf? : Tree Label → Option ExportEntry
  | .branch .entry children =>
    match leaves .name children with
    | [name] => some ⟨name, name⟩
    | name :: rename :: _ => some ⟨name, rename⟩
    | [] => none
  | _ => none

/-- A name without quotation marks at its ends. -/
def unquoted (name : String) : String :=
  let isMark (c : Char) : Bool := isQuote c || c == '\x60'
  String.ofList (dropEndWhile isMark (name.toList.dropWhile isMark))

mutual

/-- The statement that a tree stands for. -/
def ofTree : Tree Label → Item
  | .leaf .. => .other
  | .branch label children =>
    match label with
    | .bindings => .bindings (leaves .name children)
    | .declares kind =>
      match leaves .name children with
      | name :: _ => .named kind name
      | [] => .other
    | .spaceStatement =>
      -- With nothing but a line end behind it a namespace is an expression, which declares nothing.
      match leaves .name children, leaves .unmarkedEnd children with
      | name :: _, [] => .named .unknown name
      | _, _ => .other
    | .quotedModule =>
      match leaves .quotedName children with
      | name :: _ => .quotedModule (unquoted name) (bodyOf? children)
      | [] => .other
    | .ambient => .ambient ((firstOf? children).getD .other)
    | .exported =>
      -- A default export is known by no name, whatever the declaration is called.
      if (leaves .byDefault children).isEmpty then
        match firstOf? children with
        | some declaration => .exported declaration
        | none => .other
      else .byDefault
    | .clause =>
      .clause (!(leaves .fromModule children).isEmpty) (children.filterMap entryOf?)
    | _ => .other

def ofTrees : List (Tree Label) → List Item
  | [] => []
  | tree :: trees => ofTree tree :: ofTrees trees

/-- The statement that the first branch of a list stands for. -/
def firstOf? : List (Tree Label) → Option Item
  | [] => none
  | .leaf .. :: trees => firstOf? trees
  | .branch label children :: _ => some (ofTree (.branch label children))

/-- The statements of the first body in a list. -/
def bodyOf? : List (Tree Label) → Option (List Item)
  | [] => none
  | .leaf .. :: trees => bodyOf? trees
  | .branch label children :: trees =>
    if label = .body then some (ofTrees children) else bodyOf? trees

end

end Item

end AutoImport.Source
