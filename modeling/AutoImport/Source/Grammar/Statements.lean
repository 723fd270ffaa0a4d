import AutoImport.Source.Grammar.Expressions

/-!
# Statements and declarations

The part of the grammar for statements. Declarations and exports are kept as trees; of everything
else it is only known that it is well formed.
-/

namespace AutoImport.Source.Phrase

/-- A name that a declaration introduces. -/
def declaredName (name : Phrase) : Phrase :=
  .leaf .name name

def dottedName : Phrase :=
  .sepBy (symNot "." ".") anyWord

def block : Phrase :=
  inBraces (.star (.rule .statement))

/-! ## Classes -/

def decorator : Phrase :=
  .seq [sym "@", .choice [
    .seq [sym "(", .rule .expressions, sym ")"],
    .seq [dottedName, .opt (.rule .typeArguments), .opt (.rule .arguments)]]]

/-- Members of a class between braces. -/
def classBody : Phrase :=
  inBraces (.star (.choice [sym ";", .seq [kw "static", functionBody], member]))
where
  /-- Who may use a member. -/
  access : Phrase := .choice (["public", "private", "protected"].map modifier)
  /-- The words in front of a member. -/
  modifiers : Phrase :=
    .seq [
      .opt (.choice [.seq [modifier "declare", .opt access], .seq [access, .opt (modifier "declare")]]),
      .choice [
        .seq [modifier "abstract", .opt (modifier "override"), .opt (modifier "readonly")],
        .seq [modifier "readonly", modifier "abstract"],
        modifier "accessor",
        .seq [.absent (anyOf ["abstract", "accessor"]), .opt (modifier "static"),
          .opt (modifier "override"), .opt (modifier "readonly")]],
      .opt (modifier "async"),
      .opt (.choice [modifier "get", modifier "set", sym "*"])]
  /-- What ends a member. -/
  separator : Phrase := .choice [sym ",", semicolon]
  /-- A method after its name. -/
  method : Phrase :=
    .seq [.rule .callSignature, .choice [.seq [functionBody, .opt (sym ";")], separator]]
  /-- A field after its name. -/
  field : Phrase :=
    .seq [.opt typeAnnotation, .opt (.quiet initializer), separator]
  /-- A member for every key of a type. -/
  indexed : Phrase :=
    .seq [.opt (.seq [.opt (.choice [sym "-", sym "+"]), kw "readonly"]), sym "[", .choice [
        .seq [anyWord, sym ":", .rule .anyType],
        .seq [anyWord, kw "in", .rule .anyType, .opt (.seq [kw "as", .rule .anyType])]],
      sym "]", typeAnnotation, separator]
  member : Phrase :=
    .seq [.star (.rule .decorator), .choice [
      indexed,
      .seq [modifiers, memberName, .opt (.choice [sym "?", sym "!"]), .choice [method, field]]]]

def classDeclaration : Phrase :=
  .branch (.declares .classLike) (.seq [.star (.quiet (.rule .decorator)), .opt (kw "abstract"),
    kw "class", declaredName (wordBut ["extends", "implements"]), .quiet (.opt (.rule .typeParameters)),
    .quiet heritage, .quiet (.rule .classBody)])

/-! ## Other declarations -/

/-- A function declaration, with its body or without. -/
def functionDeclaration : Phrase :=
  .branch (.declares .function) (.seq [.opt (.seq [kw "async", onSameLine]), kw "function",
    .opt (sym "*"), declaredName anyWord, .quiet (.rule .callSignature),
    .choice [functionBody, semicolon]])

/-- The variables of one declaration. -/
def bindings : Phrase :=
  .sepBy (sym ",") (.choice [
    -- The names inside a pattern are not kept.
    .seq [.choice [.present openBrace, .present (sym "[")], .quiet (.rule .pattern), rest],
    .seq [declaredName anyWord, .opt (.seq [symNot "!" "=", .present (sym ":")]), rest]])
where
  /-- The type and the value of a variable. -/
  rest : Phrase := .seq [.quiet (.opt typeAnnotation), .quiet (.opt initializer)]

/-- A declaration of variables, without its end. -/
def variableDeclaration : Phrase :=
  .branch .bindings (.seq [anyOf ["var", "let", "const"], bindings])

def enumDeclaration : Phrase :=
  .branch (.declares .unknown) (.seq [.opt (kw "const"), kw "enum", declaredName anyWord,
    .quiet (inBraces (commaList (.seq [memberName, .opt initializer])))])

def interfaceDeclaration : Phrase :=
  .branch (.declares .interface) (.seq [kw "interface", declaredName anyWord,
    .quiet (.opt (.rule .typeParameters)),
    .quiet (.opt (.seq [kw "extends", .sepBy (sym ",") (.rule .anyType)])),
    .quiet (.rule .objectType)])

/-- A name for a type. -/
def typeDeclaration : Phrase :=
  .branch (.declares .unknown) (.seq [kw "type", declaredName anyWord,
    .quiet (.opt (.rule .typeParameters)), sym "=", .quiet (.rule .anyType), semicolon])

/-- A namespace after its first word. -/
def spaceRest : Phrase :=
  .seq [.choice [.quiet string, declaredName dottedName], .opt (.quiet (.rule .block))]

def spaceDeclaration : Phrase :=
  .branch (.declares .unknown) (.seq [kw "namespace", spaceRest])

/-- A module with a plain or a quoted name. -/
def moduleDeclaration : Phrase :=
  .seq [.present (.seq [kw "module", onSameLine, .choice [anyWord, string]]), .choice [
    .branch .quotedModule (.seq [kw "module", .leaf .quotedName string,
      .opt (.branch .body (.rule .block))]),
    .branch (.declares .unknown) (.seq [kw "module", declaredName dottedName,
      .opt (.quiet (.rule .block))])]]

/-- Another name for a member of a namespace. -/
def aliasDeclaration : Phrase :=
  .seq [kw "import", anyWord, sym "=", .absent (.seq [kw "require", sym "("]), dottedName, semicolon]

/-- A declaration that only describes what exists elsewhere. -/
def ambientDeclaration : Phrase :=
  .branch .ambient (.seq [kw "declare", .choice [
    .seq [kw "global", functionBody],
    .seq [kw "module", sym ".", anyWord, sym ":", .quiet (.rule .anyType), semicolon],
    .rule .declaration]])

def declaration : Phrase :=
  .choice [
    functionDeclaration,
    classDeclaration,
    enumDeclaration,
    .seq [variableDeclaration, semicolon],
    interfaceDeclaration,
    typeDeclaration,
    spaceDeclaration,
    moduleDeclaration,
    aliasDeclaration,
    ambientDeclaration]

/-! ## Imports and exports -/

/-- A name between the braces of an import or an export. -/
def moduleName : Phrase :=
  .choice [string, anyWord]

/-- An entry between braces with the name and perhaps another name for it. -/
def renamedEntry : Phrase :=
  .choice [
    .seq [anyOf ["type", "typeof"], names, .present (.choice [sym ",", closeBrace])],
    .seq [names, .present (.choice [sym ",", closeBrace])]]
where
  names : Phrase := .seq [declaredName moduleName, .opt (.seq [kw "as", declaredName moduleName])]

def entries : Phrase :=
  inBraces (commaList (.branch .entry renamedEntry))

def fromModule : Phrase :=
  .seq [kw "from", string]

/-- What an import asks of the module besides its names. -/
def importAttributes : Phrase :=
  .opt (.seq [anyOf ["with", "assert"], .rule .objectLiteral])

def importStatement : Phrase :=
  .quiet (.seq [kw "import", .choice [
    .seq [string, importAttributes, semicolon],
    .seq [anyOf ["type", "typeof"], clause, fromModule, importAttributes, semicolon],
    .seq [clause, fromModule, importAttributes, semicolon],
    .seq [.opt (kw "type"), required],
    required,
    .seq [anyWord, sym "=", .absent (.seq [kw "require", sym "("]), dottedName, semicolon]]])
where
  /-- All names of a module under one name. -/
  whole : Phrase := .seq [sym "*", kw "as", anyWord]
  /-- What an import binds. -/
  clause : Phrase :=
    .choice [whole, entries, .seq [anyWord, .opt (.seq [sym ",", .choice [whole, entries]])]]
  /-- A module that is bound as one value. -/
  required : Phrase :=
    .seq [anyWord, sym "=", kw "require", sym "(", string, sym ")", semicolon]

/-- Words that start a declaration wherever one may stand. -/
def declarationWords : List String :=
  ["var", "const", "enum", "interface", "abstract"]

/-- An export statement after the word `export`. -/
def exportRest : Phrase :=
  .choice [
    .branch .exported (.seq [.leaf .byDefault (kw "default"), .choice [
      .rule .declaration,
      .seq [.absent (anyOf declarationWords), .quiet (.rule .expression), semicolon]]]),
    .seq [sym "*", .opt (.seq [kw "as", moduleName]), fromModule, semicolon],
    -- The leaf stands for the module alone: whether there is one is all that is asked of it.
    .branch .clause (.seq [.opt (kw "type"), entries, .opt (.leaf .fromModule fromModule), semicolon]),
    .seq [kw "import", anyWord, sym "=", .absent (.seq [kw "require", sym "("]), dottedName, semicolon],
    .seq [sym "=", .quiet (.rule .expression), semicolon],
    .seq [kw "as", kw "namespace", anyWord, semicolon],
    .branch .exported (.rule .declaration)]

def exportStatement : Phrase :=
  .seq [.star (.quiet (.rule .decorator)), kw "export", exportRest]

/-! ## Control -/

def condition : Phrase :=
  inParentheses (.rule .expressions)

def loopHead : Phrase :=
  .choice [
    .seq [sym "(", .choice [
        .seq [anyOf ["var", "let", "const"], .rule .pattern, .opt typeAnnotation, .opt initializer],
        .seq [.rule .pattern, .star memberSuffix],
        .rule .reference],
      anyOf ["in", "of"], .rule .expressions, sym ")"],
    .seq [sym "(", .opt (.choice [variableDeclaration, .rule .expressions]), sym ";",
      .opt (.rule .expressions), sym ";", .opt (.rule .expressions), sym ")"]]

/-- A statement that directs what runs next. -/
def controlStatement : Phrase :=
  .quiet (.choice [
    .seq [kw "if", condition, .rule .statement, .opt (.seq [kw "else", .rule .statement])],
    .seq [kw "for", .opt (kw "await"), loopHead, .rule .statement],
    .seq [kw "while", condition, .rule .statement],
    .seq [kw "do", .rule .statement, kw "while", condition, .opt semicolon],
    .seq [kw "switch", condition, inBraces (.star switchCase)],
    .seq [kw "try", .rule .block, .opt handler, .opt (.seq [kw "finally", .rule .block])],
    .seq [kw "with", condition, .rule .statement],
    .seq [anyOf ["break", "continue"], .opt (.seq [onSameLine, anyWord]), semicolon],
    .seq [kw "debugger", semicolon],
    .seq [kw "return", .opt (.seq [onSameLine, .rule .expressions]), semicolon],
    .seq [kw "throw", .rule .expressions, semicolon]])
where
  switchCase : Phrase :=
    .seq [.choice [.seq [kw "case", .rule .expressions], kw "default"], sym ":",
      .star (.rule .statement)]
  handler : Phrase :=
    .seq [kw "catch", .opt (.seq [sym "(", .rule .pattern, .opt typeAnnotation, sym ")"]), .rule .block]

/-- Words that no statement starts with as the mention of a name. -/
def statementWords : List String :=
  declarationWords ++ ["if", "else", "switch", "case", "default", "for", "while", "do", "try", "catch",
    "finally", "with", "break", "continue", "debugger", "return", "throw", "export"]

def expressionStatement : Phrase :=
  .quiet (.seq [
    .absent (anyOf statementWords),
    -- A named function or class here is a declaration that failed to read as one.
    .absent (.seq [.opt (.seq [kw "async", onSameLine]), kw "function", .opt (sym "*"), anyWord]),
    .absent (.seq [kw "class", wordBut ["extends", "implements"]]),
    .rule .expressions, semicolon])

/-- A namespace that stands as a statement, with a mark when nothing but a line end follows. -/
def spaceStatement : Phrase :=
  .branch .spaceStatement (.seq [kw "namespace", spaceRest,
    .opt (.leaf .unmarkedEnd (.terminal unmarkedEnd))])

def statement : Phrase :=
  .choice [
    sym ";",
    exportStatement,
    importStatement,
    .quiet (.rule .block),
    controlStatement,
    -- Before the declarations, which would read the same words without minding how they end.
    spaceStatement,
    .rule .declaration,
    -- A label in front of a statement.
    .quiet (.seq [wordBut (statementWords ++ expressionWords), sym ":", .rule .statement]),
    expressionStatement]

/-- The grammar of source files. -/
def grammar (dialect : Dialect) : GrammarRule → Phrase
  | .statement => statement
  | .block => block
  | .declaration => declaration
  | .expression => expression
  | .expressions => expressions
  | .conditional => conditional
  | .unary => unary
  | .reference => reference
  | .memberChain => memberChain
  | .angled => angled dialect
  | .arguments => arguments
  | .objectLiteral => objectLiteral
  | .template => template
  | .classBody => classBody
  | .decorator => decorator
  | .pattern => pattern
  | .parameters => parameters
  | .typeParameters => typeParameters
  | .typeArguments => typeArguments
  | .callSignature => callSignature
  | .anyType => anyType
  | .unionType => unionType
  | .objectType => objectType
  | .element => element

end AutoImport.Source.Phrase
