import AutoImport.Source.Grammar.Rule

/-!
# Types

The part of the grammar for types: unions of operands, conditional types, function types, object
types, and the parameters that function types share with functions.
-/

namespace AutoImport.Source.Phrase

/-- A type between its modifiers and brackets. -/
def primaryType : Phrase :=
  .seq [.star (sym "?"), .choice [
    sym "*",
    inParentheses (.rule .anyType),
    .rule .objectType,
    inBrackets (looseList tupleMember),
    .seq [sym "\x60", .star templatePart, .terminal (fun text => Text.dropPrefix? ['\x60'] text)],
    string,
    .terminal numberLiteral,
    .seq [sym "-", .terminal numberLiteral],
    .seq [kw "typeof", .choice [importCall, anyWord],
      .star (.choice [.seq [sym ".", .choice [anyWord, .terminal privateName]],
        .seq [onSameLine, inBrackets (.rule .anyType)]]),
      .opt (.seq [onSameLine, .rule .typeArguments])],
    .seq [importCall, .star (.seq [sym ".", anyWord]), .opt (.rule .typeArguments)],
    .seq [wordBut operatorWords, .star (.seq [sym ".", anyWord]), .opt (.rule .typeArguments)]]]
where
  /-- Words that start something other than the name of a type. -/
  operatorWords : List String :=
    ["typeof", "keyof", "new", "import", "infer", "extends", "abstract", "unique", "readonly"]
  /-- A module that is named where a type stands. -/
  importCall : Phrase :=
    .seq [kw "import", sym "(", string, .opt (.seq [sym ",", .rule .objectLiteral]), sym ")"]
  /-- A type between the quotes of a template. -/
  templatePart : Phrase :=
    .choice [.terminal templateChunk, .terminal templateEscape,
      .seq [.terminal (Text.dropPrefix? ['$', '{']), .rule .anyType, closeBrace]]
  tupleMember : Phrase :=
    .seq [.opt (sym "..."), .choice [
      .seq [anyWord, .opt (sym "?"), sym ":", .rule .anyType],
      .seq [.rule .anyType, .opt (sym "?")]]]

def functionType : Phrase :=
  .seq [.opt (.seq [.opt (modifier "abstract"), kw "new"]), .opt (.rule .typeParameters),
    .rule .parameters, sym "=>", returnType]
where
  /-- What a function type answers with. -/
  returnType : Phrase :=
    .choice [
      .seq [kw "asserts", onSameLine, anyWord, .opt (.seq [kw "is", .rule .anyType])],
      .seq [anyWord, onSameLine, kw "is", .rule .anyType],
      .rule .anyType]

/-- A type without `|` and `&`. -/
def typeOperand : Phrase :=
  .choice [
    functionType,
    .seq [.choice [kw "keyof", modifier "readonly"], operandAgain],
    .seq [kw "unique", onSameLine, kw "symbol"],
    .seq [kw "infer", anyWord, .opt (.seq [kw "extends", .rule .unionType])],
    suffixed]
where
  /-- A type with brackets behind it. -/
  suffixed : Phrase :=
    .seq [primaryType, .star (.seq [onSameLine, inBrackets (.opt (.rule .anyType))])]
  /-- The operand of a type operator. -/
  operandAgain : Phrase :=
    .seq [.star (.choice [kw "keyof", modifier "readonly"]),
      .choice [.seq [kw "unique", kw "symbol"],
        .seq [kw "infer", anyWord], functionType, suffixed]]

def unionType : Phrase :=
  .seq [.opt joint, .sepBy joint typeOperand]
where
  joint : Phrase := .choice [sym "|", sym "&"]

/-- A type, with the condition that chooses between two others. -/
def anyType : Phrase :=
  .seq [.rule .unionType,
    .opt (.seq [kw "extends", .rule .unionType, sym "?", .rule .anyType, sym ":", .rule .anyType])]

def typeArguments : Phrase :=
  .seq [sym "<", .sepBy (sym ",") (.rule .anyType), .opt (sym ","), sym ">"]

def typeParameters : Phrase :=
  .seq [sym "<", .sepBy (sym ",") parameter, .opt (sym ","), sym ">"]
where
  /-- One type parameter. -/
  parameter : Phrase :=
    .seq [.opt constantly, anyWord,
      .opt (.seq [kw "extends", .rule .anyType]), .opt (.seq [symNot "=" "=>", .rule .anyType])]
  /-- The word `const` in front of the name of a type parameter. -/
  constantly : Phrase :=
    .seq [kw "const", .absent (.choice [sym ",", sym ">", sym "=", kw "extends"])]

/-- The type that a function is declared to answer with. -/
def returnAnnotation : Phrase :=
  .seq [sym ":", functionType.returnType]

/-- Type parameters, parameters and the type of the answer. -/
def callSignature : Phrase :=
  .seq [.opt (.rule .typeParameters), .rule .parameters, .opt returnAnnotation]

/-- Parameters between parentheses. -/
def parameters : Phrase :=
  inParentheses (commaList parameter)
where
  /-- One parameter. -/
  parameter : Phrase :=
    .seq [.star (.rule .decorator), .opt (.choice (["public", "private", "protected"].map modifier)),
      .opt (modifier "override"), .opt (modifier "readonly"), .opt (sym "..."), .rule .pattern,
      .opt (sym "?"), .opt typeAnnotation, .opt initializer]

/-- Members of an object type between braces. -/
def objectType : Phrase :=
  inBraces (.opt (.seq [.opt (.choice [sym ",", sym ";"]),
    .plus (.seq [.absent closeBrace, member, separator])]))
where
  /-- What ends a member. -/
  separator : Phrase := .choice [sym ",", sym ";", .terminal unmarkedEnd]
  /-- One member. -/
  member : Phrase :=
    .choice [
      indexed,
      .rule .callSignature,
      .seq [.opt (modifier "abstract"), kw "new", .rule .callSignature],
      .seq [.absent (kw "abstract"), .star (.choice (words.map modifier)), .opt (modifier "async"),
        .opt (.choice [modifier "get", modifier "set", sym "*"]), memberName, .opt (sym "?"),
        .choice [.rule .callSignature, .opt typeAnnotation]]]
  /-- A member for every key of a type. -/
  indexed : Phrase :=
    .seq [.opt (.seq [.opt (.choice [sym "-", sym "+"]), kw "readonly"]), sym "[", .choice [
        .seq [anyWord, sym ":", .rule .anyType],
        .seq [anyWord, kw "in", .rule .anyType, .opt (.seq [kw "as", .rule .anyType])]],
      sym "]", .opt (.seq [.opt (.choice [sym "-", sym "+"]), sym "?"]), .opt typeAnnotation]
  /-- The words in front of a member. -/
  words : List String := ["public", "private", "protected", "static", "override", "readonly"]

end AutoImport.Source.Phrase
