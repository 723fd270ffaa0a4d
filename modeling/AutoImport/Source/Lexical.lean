import AutoImport.Text.Search
import AutoImport.Import.Comment

/-!
# Tokens of a source file

The readers of single tokens. Each one takes a text and gives what is left of it after the token, or
nothing when the text does not begin with it. Gaps between tokens are blanks and comments; where a
token may follow a gap, its reader passes over the gap first.
-/

namespace AutoImport.Source

open Text

/-- Reads one token from the front of a text. -/
abbrev Reader := List Char → Option (List Char)

/-- A blank between tokens. -/
def isGap (c : Char) : Bool :=
  let point := c.toNat
  (9 ≤ point && point ≤ 13) || point == 32 ||
    (128 ≤ point &&
      -- Not the blanks of `Text.isBlank`: U+200B, U+2060 and U+FEFF count here, U+0085 does not.
      (point == 0xA0 || point == 0x1680 || (0x2000 ≤ point && point ≤ 0x200B) || point == 0x2028 ||
        point == 0x2029 || point == 0x202F || point == 0x205F || point == 0x2060 ||
        point == 0x3000 || point == 0xFEFF))

/-- What is left of a text after the blanks and comments that it begins with, when it is entered in
the given state. A block comment that nothing ends is no comment. -/
def skipGapFrom : CommentState → List Char → List Char
  | _, [] => []
  | .code, '/' :: '/' :: text => skipGapFrom .line text
  | .code, '/' :: '*' :: text =>
    if contains ['*', '/'] text then skipGapFrom .block text else '/' :: '*' :: text
  | .code, c :: text => if isGap c then skipGapFrom .code text else c :: text
  | .line, c :: text => skipGapFrom (if c == '\n' then .code else .line) text
  | .block, '*' :: '/' :: text => skipGapFrom .code text
  | .block, _ :: text => skipGapFrom .block text

def skipGap (text : List Char) : List Char :=
  skipGapFrom .code text

def isLineEnd (c : Char) : Bool :=
  c == '\n' || c.toNat == 0x2028 || c.toNat == 0x2029

/-- Whether a line ends in the gap that a text begins with, when it is entered in the given state. -/
def gapEndsLineFrom : CommentState → List Char → Bool
  | _, [] => false
  | .code, '/' :: '/' :: text => gapEndsLineFrom .line text
  | .code, '/' :: '*' :: text => contains ['*', '/'] text && gapEndsLineFrom .block text
  | .code, c :: text => isGap c && (isLineEnd c || gapEndsLineFrom .code text)
  | .line, c :: text => isLineEnd c || gapEndsLineFrom .line text
  | .block, '*' :: '/' :: text => gapEndsLineFrom .code text
  | .block, c :: text => isLineEnd c || gapEndsLineFrom .block text

def gapEndsLine (text : List Char) : Bool :=
  gapEndsLineFrom .code text

/-- Passes over nothing, where the gap that comes next stays on its line. -/
def sameLine : Reader := fun text =>
  if gapEndsLine text then none else some text

/-! ## Words -/

/-- The marks that no word holds. -/
def wordBreaks : List Char :=
  [':', ';', '\x60', '"', '\'', '@', '#', '.', ',', '|', '^', '&', '<', '=', '>', '+', '-', '*', '/',
    '\\', '%', '?', '!', '~', '(', ')', '[', ']', '{', '}']

/-- A character that a word of a source file goes on with. -/
def isWordChar (c : Char) : Bool :=
  if c.isAlphanum || c == '_' || c == '$' then true
  else if c.toNat < 32 then false
  else !isGap c && !wordBreaks.contains c

def isHexDigit (c : Char) : Bool :=
  c.isDigit || ('a' ≤ c && c ≤ 'f') || ('A' ≤ c && c ≤ 'F')

/-- Reads one or more characters that satisfy a test. -/
def some1 (test : Char → Bool) : Reader
  | [] => none
  | c :: text => if test c then some (text.dropWhile test) else none

/-- Whether a text begins with `count` characters that satisfy a test. -/
def beginsWith (test : Char → Bool) : (count : Nat) → List Char → Bool
  | 0, _ => true
  | _ + 1, [] => false
  | count + 1, c :: text => test c && beginsWith test count text

/-- The length of what follows `\u`: four hexadecimal digits, or any number of them in braces. -/
def unicodeLength? : List Char → Option Nat
  | '{' :: text =>
    let count := (text.takeWhile isHexDigit).length
    if count != 0 && (text.drop count).head? == some '}' then some (count + 2) else none
  | text => if beginsWith isHexDigit 4 text then some 4 else none

/-- The characters of the word that a text begins with, and what is left after it. An escape is part
of a word; `skip` characters belong to one that was met before. -/
def spanWord : (skip : Nat) → List Char → List Char × List Char
  | _, [] => ([], [])
  | skip + 1, c :: text =>
    let (read, rest) := spanWord skip text
    (c :: read, rest)
  | 0, c :: text =>
    if isWordChar c then
      let (read, rest) := spanWord 0 text
      (c :: read, rest)
    else
      match c, text with
      | '\\', 'u' :: more =>
        match unicodeLength? more with
        | some count =>
          let (read, rest) := spanWord (count + 1) text
          (c :: read, rest)
        | none => ([], c :: text)
      | _, _ => ([], c :: text)

/-- The word that comes next, after a gap, and what is left after it. A word starts with no digit. -/
def nextWord? (text : List Char) : Option (List Char × List Char) :=
  match skipGap text with
  | [] => none
  | c :: text =>
    if c.isDigit then none
    else
      match spanWord 0 (c :: text) with
      | ([], _) => none
      | found => some found

def word : Reader := fun text =>
  (nextWord? text).map fun (_, rest) => rest

def keyword (expected : List Char) : Reader := fun text =>
  match dropPrefix? expected (skipGap text) with
  | none => none
  | some [] => some []
  -- A backslash would start an escape, which goes on with the word.
  | some (c :: rest) => if isWordChar c || c == '\\' then none else some (c :: rest)

/-- Reads a word that is none of the given ones. -/
def wordExcept (excluded : List (List Char)) : Reader := fun text =>
  match nextWord? text with
  | none => none
  | some (found, rest) => if excluded.contains found then none else some rest

def privateName : Reader := fun text =>
  match skipGap text with
  | '#' :: c :: rest => if isGap c then none else word (c :: rest)
  | _ => none

/-- Reads the given marks. -/
def symbol (expected : List Char) : Reader := fun text =>
  dropPrefix? expected (skipGap text)

/-- Reads the given marks where none of `excluded` comes right after them. -/
def symbolNotBefore (expected excluded : List Char) : Reader := fun text =>
  match symbol expected text with
  | some (c :: rest) => if excluded.contains c then none else some (c :: rest)
  | found => found

/-! ## Literals -/

/-- The length of what follows a backslash in a string or a template. -/
def escapeLength? : List Char → Option Nat
  | [] => none
  | 'x' :: text => if beginsWith isHexDigit 2 text then some 3 else none
  | 'u' :: text => (unicodeLength? text).map (· + 1)
  -- A backslash in front of a line end continues the string on the next line.
  | '\r' :: '\n' :: _ => some 2
  | _ :: _ => some 1

/-- Reads a string up to and with the quotation mark that ends it. `skip` characters belong to an
escape that was met before. -/
def stringRest (mark : Char) : (skip : Nat) → Reader
  | _, [] => none
  | skip + 1, _ :: text => stringRest mark skip text
  | 0, c :: text =>
    if c == mark then some text
    -- No string goes on past the end of its line, an escaped one apart.
    else if c == '\n' || c == '\r' then none
    else if c == '\\' then
      match escapeLength? text with
      | some count => stringRest mark count text
      | none => none
    else stringRest mark 0 text

def stringLiteral : Reader := fun text =>
  match skipGap text with
  | c :: rest => if isQuote c then stringRest c 0 rest else none
  | [] => none

/-- Reads digits of a kind, with single underscores between them. -/
def digits (test : Char → Bool) : Reader
  | [] => none
  | c :: text => if test c then some (more text) else none
where
  more : List Char → List Char
    | [] => []
    -- An underscore belongs to the number only where a digit follows it.
    | '_' :: d :: text => if test d then more text else '_' :: d :: text
    | c :: text => if test c then more text else c :: text

/-- Reads the exponent of a decimal number where there is one. -/
def exponentOr (text : List Char) : List Char :=
  match text with
  | e :: rest =>
    if e == 'e' || e == 'E' then
      let signed := match rest with
        | s :: more => if s == '+' || s == '-' then more else rest
        | [] => rest
      (digits Char.isDigit signed).getD text
    else text
  | [] => []

/-- Reads digits after a point, and an exponent. -/
def fraction (text : List Char) : List Char :=
  exponentOr ((digits Char.isDigit text).getD text)

/-- What is left after the mark of a big integer, where there is one. -/
def bigMark (text : List Char) : List Char :=
  match text with
  | 'n' :: rest => rest
  | _ => text

def numberLiteral : Reader := fun text =>
  match skipGap text with
  | '0' :: x :: rest =>
    if x == 'x' || x == 'X' then (digits isHexDigit rest).map bigMark
    else if x == 'o' || x == 'O' then (digits (fun c => '0' ≤ c && c ≤ '7') rest).map bigMark
    else if x == 'b' || x == 'B' then (digits (fun c => c == '0' || c == '1') rest).map bigMark
    else decimal ('0' :: x :: rest)
  | rest => decimal rest
where
  decimal : Reader
    | '.' :: c :: text => if c.isDigit then some (fraction (c :: text)) else none
    | text =>
      (digits Char.isDigit text).map fun rest =>
        match rest with
        | 'n' :: more => more
        | '.' :: more => fraction more
        | _ => exponentOr rest

/-- Reads the pattern of a regular expression up to and with the slash that ends it. -/
def patternRest : (inClass empty : Bool) → Reader
  | _, _, [] => none
  | inClass, _, '\\' :: c :: text => if isLineEnd c then none else patternRest inClass false text
  | inClass, empty, c :: text =>
    -- A slash in brackets is a character of the class; an empty pattern would be a line comment.
    if isLineEnd c || c == '\r' then none
    else if c == '/' && !inClass then (if empty then none else some text)
    else patternRest (c == '[' || (inClass && c != ']')) false text

/-- Reads a regular expression with its flags. -/
def regexLiteral : Reader := fun text =>
  match skipGap text with
  | '/' :: rest => (patternRest false true rest).map (·.dropWhile fun c => 'a' ≤ c && c ≤ 'z')
  | _ => none

/-- What is left of a template from the next mark in it on. -/
def templateRest : List Char → List Char
  | [] => []
  | '$' :: '{' :: text => '$' :: '{' :: text
  | c :: text => if c == '\x60' || c == '\\' then c :: text else templateRest text

/-- Reads characters of a template that stand for themselves. -/
def templateChunk : Reader
  | [] => none
  | '$' :: '{' :: _ => none
  | c :: text => if c == '\x60' || c == '\\' then none else some (templateRest text)

def templateEscape : Reader
  | '\\' :: text => (escapeLength? text).map text.drop
  | _ => none

/-! ## Ends of statements -/

/-- Whether a statement can end, after a line end, before the given text. It cannot where the text
goes on with the statement. -/
def endsBefore : List Char → Bool
  -- `++`, `--` and `!` start a statement of their own, and so does a word that only begins like
  -- `in` or `instanceof`.
  | '+' :: c :: _ => c == '+'
  | '-' :: c :: _ => c == '-'
  | '!' :: c :: _ => c != '='
  | 'i' :: 'n' :: rest =>
    match dropPrefix? ['s', 't', 'a', 'n', 'c', 'e', 'o', 'f'] rest with
    | some more => (more.head?.map Char.isAlpha).getD false
    | none => (rest.head?.map Char.isAlpha).getD false
  | c :: _ =>
    !(['\x60', ',', '.', ';', '*', '%', '>', '<', '=', '?', '^', '|', '&', '/', ':', '+', '-'].contains c)
  | [] => true

/-- Reads the end of a statement that no `;` marks: the end of the text, a closing brace, or a line
end before something that does not go on with the statement. It takes up nothing. -/
def unmarkedEnd : Reader := fun text =>
  match skipGap text with
  | [] => some text
  | '}' :: _ => some text
  | rest => if gapEndsLine text && endsBefore rest then some text else none

/-! ## Markup -/

def markupText : Reader :=
  some1 fun c => !(['<', '>', '{', '}', '&'].contains c)

/-- Reads a character that is named or numbered, from its `&` to its `;`. -/
def characterReference : Reader
  | '&' :: '#' :: x :: text =>
    if x == 'x' || x == 'X' then closed (some1 isHexDigit text)
    else closed (some1 Char.isDigit (x :: text))
  | '&' :: text => closed (some1 Char.isAlpha text)
  | _ => none
where
  closed (rest : Option (List Char)) : Option (List Char) := rest.bind (dropPrefix? [';'])

/-- Reads a name in markup, which may hold hyphens. -/
def markupName : Reader := fun text =>
  (word text).map fun rest => rest.dropWhile fun c => isWordChar c || c == '-'

/-- Reads the string of an attribute up to and with the quotation mark that ends it. It knows no
escapes and may span lines; an `&` before a letter or a `#` starts the name of a character. -/
def markupStringRest (mark : Char) : Reader
  | [] => none
  | c :: text =>
    if c == mark then some text
    else if c == '&' && (text.head?.map fun next => next.isAlpha || next == '#') == some true &&
        (characterReference (c :: text)).isNone then none
    else markupStringRest mark text

def markupString : Reader := fun text =>
  match skipGap text with
  | c :: rest => if isQuote c then markupStringRest c rest else none
  | [] => none

/-! ## The start of a file -/

/-- What is left of a file after a line that names its interpreter. -/
def skipInterpreter : List Char → List Char
  | '#' :: '!' :: text => text.dropWhile (· != '\n')
  | text => text

end AutoImport.Source
