import AutoImport.Source.Item
import AutoImport.Source.Lexical

/-!
# The rules of the grammar

The names of the rules through which the grammar of source files refers to itself, and the tokens and
lists that its parts are written with.
-/

namespace AutoImport.Source

/-- The two forms of the language: the plain one, and the one with markup in expressions. -/
inductive Dialect where
  | plain
  | markup
  deriving DecidableEq, Repr

namespace Dialect

/-- The form that a file is written in, by its extension. -/
def ofPath (path : Path) : Dialect :=
  match path.extension? with
  | some "tsx" => .markup
  | some "jsx" => .markup
  | _ => .plain

end Dialect

inductive GrammarRule where
  | statement
  | block
  | declaration
  | expression
  | expressions
  | conditional
  | unary
  | reference
  | memberChain
  | angled
  | arguments
  | objectLiteral
  | template
  | classBody
  | decorator
  | pattern
  | parameters
  | typeParameters
  | typeArguments
  | callSignature
  | anyType
  | unionType
  | objectType
  | element
  deriving DecidableEq, Repr

abbrev Phrase := Peg GrammarRule Label

namespace Phrase

def kw (word : String) : Phrase :=
  .terminal (keyword word.toList)

def sym (marks : String) : Phrase :=
  .terminal (symbol marks.toList)

/-- The given marks where none of `excluded` comes right after them. -/
def symNot (marks excluded : String) : Phrase :=
  .terminal (symbolNotBefore marks.toList excluded.toList)

def anyWord : Phrase :=
  .terminal word

def wordBut (excluded : List String) : Phrase :=
  .terminal (wordExcept (excluded.map String.toList))

def string : Phrase :=
  .terminal stringLiteral

/-- A place that no line end separates from what was read last. -/
def onSameLine : Phrase :=
  .terminal sameLine

def anyOf (words : List String) : Phrase :=
  .choice (words.map kw)

/-- Entries between commas; a comma may end them, and there may be none. -/
def commaList (entry : Phrase) : Phrase :=
  .opt (.seq [.sepBy (sym ",") entry, .opt (sym ",")])

/-- Entries between commas, some of which may be left out. -/
def looseList (entry : Phrase) : Phrase :=
  .sepBy (sym ",") (.opt entry)

def openBrace : Phrase :=
  .terminal (symbol ['{'])

def closeBrace : Phrase :=
  .terminal (symbol ['}'])

def inParentheses (body : Phrase) : Phrase :=
  .seq [sym "(", body, sym ")"]

def inBrackets (body : Phrase) : Phrase :=
  .seq [sym "[", body, sym "]"]

def inBraces (body : Phrase) : Phrase :=
  .seq [openBrace, body, closeBrace]

def semicolon : Phrase :=
  .choice [sym ";", .terminal unmarkedEnd]

/-- A word that says more about the name after it, in a place where it is not the name itself. -/
def modifier (word : String) : Phrase :=
  .seq [kw word, .absent (.choice
    (closeBrace :: ["(", "=", ";", ":", "?", "!", ",", "<", ")"].map sym))]

/-- The name of a member: a word, a string, a number, a private name or a computed name. -/
def memberName : Phrase :=
  .choice [anyWord, string, .terminal numberLiteral, .terminal privateName,
    inBrackets (.rule .expression)]

def typeAnnotation : Phrase :=
  .seq [sym ":", .rule .anyType]

def initializer : Phrase :=
  -- Neither a comparison nor the arrow of a function.
  .seq [symNot "=" "=>", .rule .expression]

end Phrase

end AutoImport.Source
