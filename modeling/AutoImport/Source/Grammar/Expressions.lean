import AutoImport.Source.Grammar.Types

/-!
# Expressions

The part of the grammar for expressions. Operators are read as a flat sequence, since how they group
makes no difference to what a file declares.
-/

namespace AutoImport.Source.Phrase

/-- Words that start something other than the mention of a name. -/
def expressionWords : List String :=
  ["function", "class", "new", "typeof", "void", "delete", "import", "this", "super", "null", "true",
    "false"]

def mention : Phrase :=
  wordBut expressionWords

/-- The operators that assign a value. -/
def assignment : Phrase :=
  .choice (symNot "=" "=>" ::
    ["+=", "-=", "**=", "*=", "/=", "%=", "^=", "&&=", "&=", "||=", "|=", ">>>=", ">>=", "<<=",
      "??="].map sym)

/-- What takes a value apart: a name, or a pattern of an object or an array. -/
def pattern : Phrase :=
  .choice [
    inBraces (looseList (.choice [
      .seq [sym "...", .rule .pattern],
      .seq [memberName, sym ":", target, .opt initializer],
      .seq [anyWord, .opt initializer]])),
    inBrackets (looseList (.choice [
      .seq [sym "...", target],
      .seq [target, .opt initializer]])),
    anyWord]
where
  /-- Where a part of a value goes. -/
  target : Phrase :=
    .seq [.rule .pattern, .star (.choice [
      .seq [sym ".", .choice [anyWord, .terminal privateName]],
      inBrackets (.rule .expressions)])]

def functionBody : Phrase :=
  .quiet (.rule .block)

def functionExpression : Phrase :=
  .seq [.opt (modifier "async"), kw "function", .opt (sym "*"), .opt anyWord, .rule .callSignature,
    functionBody]

def heritage : Phrase :=
  .seq [
    .opt (.seq [kw "extends", .sepBy (sym ",") (.seq [.rule .reference, .opt (.rule .typeArguments)])]),
    .opt (.seq [kw "implements", .sepBy (sym ",") (.rule .anyType)])]

def classExpression : Phrase :=
  .seq [.star (.rule .decorator), kw "class", .opt (wordBut ["extends", "implements"]),
    .opt (.rule .typeParameters), heritage, .rule .classBody]

/-- An entry of a list of values, or all entries of another list. -/
def entryOrSpread : Phrase :=
  .seq [.opt (sym "..."), .rule .expression]

def arguments : Phrase :=
  inParentheses (looseList entryOrSpread)

/-- A text with expressions in it. -/
def template : Phrase :=
  .seq [sym "\x60", .star (.choice [
      .terminal templateChunk,
      .terminal templateEscape,
      .seq [.terminal (Text.dropPrefix? ['$', '{']), .rule .expressions, closeBrace]]),
    .terminal (Text.dropPrefix? ['\x60'])]

/-- The members of an object between braces. -/
def objectLiteral : Phrase :=
  inBraces (looseList (.choice [
    .seq [sym "...", .rule .expression],
    .seq [.star (.choice (["public", "private", "protected", "static", "override", "readonly"].map modifier)),
      .opt (modifier "async"), .opt (.choice [modifier "get", modifier "set", sym "*"]),
      memberName, .opt (sym "?"), .choice [
        .seq [.rule .callSignature, functionBody],
        .seq [sym ":", .rule .expression]]],
    .seq [mention, .absent (.choice [sym ":", sym "("])]]))

/-- A value that cannot be assigned to. -/
def literal : Phrase :=
  .seq [.choice [
      .terminal numberLiteral, string, .terminal regexLiteral, .rule .template, kw "this", kw "super",
      kw "null", kw "true", kw "false"],
    .absent assignment]

/-- What a chain of members and calls starts with. -/
def primary : Phrase :=
  .choice [
    literal,
    .seq [sym "(", .rule .expressions, .opt typeAnnotation, sym ")"],
    -- A pattern that is assigned to comes before the literals, which begin alike.
    .seq [.choice [.present openBrace, .present (sym "[")], .rule .pattern,
      .present (symNot "=" "=>")],
    inBrackets (looseList entryOrSpread),
    .rule .objectLiteral,
    functionExpression,
    classExpression,
    .seq [kw "new", .choice [
      .seq [sym ".", kw "target"],
      .seq [.rule .memberChain, .opt (.rule .typeArguments), .opt (.rule .arguments)]]],
    .seq [kw "import", .choice [.seq [sym ".", anyWord], .rule .arguments]],
    mention]

/-- A member of what stands before. -/
def memberSuffix : Phrase :=
  .choice [
    .seq [symNot "." ".", .choice [anyWord, .terminal privateName]],
    inBrackets (.rule .expressions),
    .seq [onSameLine, symNot "!" "="]]

/-- What `new` makes an instance of. -/
def memberChain : Phrase :=
  .seq [.choice [
      .seq [kw "new", .rule .memberChain, .opt (.rule .typeArguments), .rule .arguments], primary],
    .star (.choice [memberSuffix, .rule .template])]

/-- A call, a member behind a question mark, or a text with a function in front. -/
def callSuffix : Phrase :=
  .choice [
    -- A digit behind `?.` makes the point part of a number, and the mark a condition.
    .seq [sym "?.", .absent (.terminal numberLiteral), .choice [
      .rule .arguments,
      .seq [.rule .typeArguments, .rule .arguments],
      inBrackets (.rule .expressions),
      .rule .template,
      anyWord,
      .terminal privateName]],
    .seq [.rule .arguments, .absent assignment],
    .rule .template,
    .seq [.rule .typeArguments, .choice [
      .rule .arguments,
      .rule .template,
      .absent startsExpression]]]
where
  /-- What an expression may start with; type arguments in front of it would be comparisons. -/
  startsExpression : Phrase :=
    .choice [.seq [.absent (anyOf ["in", "instanceof", "as", "satisfies", "of"]), onSameLine, anyWord],
      string, .terminal numberLiteral, openBrace, sym "[", sym "+", sym "-", sym "!", sym "~", sym "<",
      sym ">", sym "/", sym "@", sym "#"]

def reference : Phrase :=
  .seq [primary, .star (.choice [memberSuffix, callSuffix])]

/-- What follows the arrow of a function. -/
def arrowBody : Phrase :=
  .choice [.seq [.present openBrace, functionBody], .seq [.absent openBrace, .rule .expression]]

/-- A function whose body follows an arrow. -/
def arrowFunction : Phrase :=
  .seq [.opt (.seq [kw "async", onSameLine, .absent (sym "=>")]),
    .choice [
      .seq [mention, sym "=>"],
      -- Only the arrow tells parameters from an expression in parentheses.
      .seq [.rule .callSignature, sym "=>"]],
    arrowBody]

/-- An operator in front of its operand. -/
def prefixOperator : Phrase :=
  .choice ([sym "++", sym "--", sym "!", sym "~", sym "+", sym "-"] ++
    ["typeof", "void", "delete", "await"].map modifierWord)
where
  /-- A word that is an operator where an operand follows. -/
  modifierWord (word : String) : Phrase :=
    .seq [kw word, .absent (.choice [sym ")", sym "=", sym ";", sym ",", sym "]", closeBrace, sym ":"])]

/-- An operator behind its operand. -/
def increment : Phrase :=
  .seq [onSameLine, .choice [sym "++", sym "--"]]

/-- An operand with the operators in front of it. -/
def unary : Phrase :=
  .choice [
    .seq [prefixOperator, .rule .unary],
    .rule .angled,
    .seq [.rule .reference, .opt increment],
    .seq [.terminal privateName, .present (kw "in")]]

/-- An operator between two operands. -/
def binaryOperator : Phrase :=
  .choice ([symNot "**" "=", symNot "*" "=", symNot "/" "=", symNot "%" "=", symNot "+" "=",
    symNot "-" "=", symNot ">>>" "=", symNot ">>" "=", symNot "<<" "=", sym "<=", sym ">=",
    symNot "<" "=", symNot ">" "=", sym "===", sym "!==", sym "==", sym "!=", symNot "&&" "=",
    symNot "||" "=", symNot "??" "=", symNot "&" "=", symNot "|" "=", symNot "^" "="] ++
    [kw "instanceof", kw "in"])

/-- Further operands, each after its operator. -/
def binaryTail : Phrase :=
  .star (.choice [
    .seq [binaryOperator, .rule .unary],
    .seq [anyOf ["as", "satisfies"], .rule .anyType]])

/-- The two values that a condition chooses from. The first one is read again without an arrow
function in front when an arrow function takes up the colon. -/
def conditionTail : Phrase :=
  .opt (.choice [
    .seq [sym "?", .rule .expression, sym ":", .rule .expression],
    .seq [sym "?", .rule .conditional, sym ":", .rule .expression]])

/-- An expression that is no arrow function and gives no value away. -/
def conditional : Phrase :=
  .choice [
    .seq [prefixOperator, .rule .unary, binaryTail, conditionTail],
    .seq [.rule .angled, binaryTail, conditionTail],
    .seq [.rule .reference, .choice [
      .seq [assignment, .rule .expression],
      .seq [.opt increment, binaryTail, conditionTail]]],
    .seq [.terminal privateName, .present (kw "in"), binaryTail, conditionTail]]

/-- An expression without commas at its top. -/
def expression : Phrase :=
  .choice [
    arrowFunction,
    .seq [kw "yield", .choice [
      .seq [sym "*", .rule .expression],
      .seq [onSameLine, .rule .expression],
      -- As a plain name, `yield` is the business of the last option.
      .absent (.choice [sym "=", sym ".", sym "("])]],
    .rule .conditional]

def expressions : Phrase :=
  .sepBy (sym ",") (.rule .expression)

/-! ## Markup -/

def elementName : Phrase :=
  .seq [.terminal markupName, .opt (.choice [
    .seq [sym ":", .terminal markupName],
    .plus (.seq [sym ".", .terminal markupName])])]

def embedded : Phrase :=
  inBraces (.opt (.choice [.seq [sym "...", .rule .expression], .rule .expressions]))

def elementAttribute : Phrase :=
  .choice [
    embedded,
    .seq [.terminal markupName, .opt (.seq [sym ":", .terminal markupName]),
      .opt (.seq [sym "=", .choice [.terminal markupString, embedded, .rule .element]])]]

/-- An element with its children, or a bare pair of angle brackets around children. -/
def element : Phrase :=
  .choice [
    .seq [sym "<", sym ">", children, sym "<", sym "/", sym ">"],
    .seq [sym "<", elementName, .opt (.rule .typeArguments), .star elementAttribute, .choice [
      .seq [sym "/", sym ">"],
      .seq [sym ">", children, sym "<", sym "/", elementName, sym ">"]]]]
where
  /-- What stands between the marks of an element. -/
  children : Phrase :=
    .star (.choice [.terminal markupText, .terminal characterReference,
      .seq [.absent (.seq [sym "<", sym "/"]), .rule .element], embedded])

/-- What an angle bracket starts: an element, or in the plain form a type that a value is taken for. -/
def angled : Dialect → Phrase
  | .markup => .rule .element
  | .plain => .seq [.rule .typeArguments, .rule .unary]

end AutoImport.Source.Phrase
