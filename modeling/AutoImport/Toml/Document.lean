import AutoImport.Toml.Number
import AutoImport.Toml.Quoted

/-!
# Documents of TOML

Reading the statements of a document, one after the other.
-/

namespace AutoImport.Toml

open Text

/-- How many lists and tables in braces may stand inside one another. -/
def maxDepth : Nat := 79

def skipInline (text : List Char) : List Char :=
  text.dropWhile isInlineBlank

/-- What follows a comment, which goes up to the end of its line. -/
def afterComment (text : List Char) : List Char :=
  text.dropWhile isShowable

/-- What follows the end of a line, on which there may be blanks and a comment. -/
def afterLine? (text : List Char) : Option (List Char) :=
  let text := skipInline text
  -- A comment with a control character in it ends early, and then the line does not end here.
  let text := if startsWith ['#'] text then afterComment text else text
  match text with
  | [] => some []
  | '\n' :: rest => some rest
  | _ => none

/-- A text without the blanks, line ends and comments it begins with. While `inComment` is set the text
starts in a comment. -/
def skipLines : (inComment : Bool) → List Char → List Char
  | _, [] => []
  | true, c :: rest =>
    if c == '\n' then skipLines false rest
    else if isShowable c then skipLines true rest
    else c :: rest
  | false, c :: rest =>
    if isInlineBlank c || c == '\n' then skipLines false rest
    else if c == '#' then skipLines true rest
    else c :: rest

/-! ## Names -/

def isNamePart (c : Char) : Bool :=
  c.isAlphanum || c == '_' || c == '-'

/-- A name without dots, and what follows it. -/
def readName? (text : List Char) : Option (String × List Char) :=
  match readShortString? text with
  | some (name, rest) => some (String.ofList name, rest)
  | none =>
    match spanWhile isNamePart text with
    | ([], _) => none
    | (name, rest) => some (String.ofList name, rest)

/-- Names with dots between them, and what follows them. There may be blanks around each. `fuel`
bounds their number. -/
def readNames? : (fuel : Nat) → List Char → Option (List String × List Char)
  | 0, _ => none
  | fuel + 1, text => do
    let (name, rest) ← readName? (skipInline text)
    match skipInline rest with
    | '.' :: rest =>
      let (names, rest) ← readNames? fuel rest
      some (name :: names, rest)
    | rest => some ([name], rest)

/-- A name with dots, its last part apart, and what follows it. -/
def readKey? (text : List Char) : Option (List String × String × List Char) := do
  let (names, rest) ← readNames? maxDepth text
  some (names.dropLast, ← names.getLast?, rest)

/-! ## Values -/

abbrev ValueReader := List Char → Option (Toml × List Char)

/-- The items of a list up to its end, and what follows it. A comma may follow the last one. `fuel`
bounds their number. -/
def readItems? (readItem? : ValueReader) : (fuel : Nat) → List Char → Option (List Toml × List Char)
  | 0, _ => none
  | fuel + 1, text =>
    match skipLines false text with
    | ']' :: rest => some ([], rest)
    | text => do
      let (item, rest) ← readItem? text
      match skipLines false rest with
      | ',' :: rest =>
        let (items, rest) ← readItems? readItem? fuel rest
        some (item :: items, rest)
      | ']' :: rest => some ([item], rest)
      | _ => none

/-- A name, `=`, and a value, and what follows them. -/
def readSetting? (readValue? : ValueReader) (text : List Char) :
    Option ((List String × String × Toml) × List Char) := do
  let (path, name, rest) ← readKey? text
  match rest with
  | '=' :: rest =>
    let (value, rest) ← readValue? (skipInline rest)
    some ((path, name, value), skipInline rest)
  | _ => none

/-- The settings in braces up to their end, and what follows it. `fuel` bounds their number. -/
def readSettings? (readValue? : ValueReader) : (fuel : Nat) → List Char →
    Option (List (List String × String × Toml) × List Char)
  | 0, _ => none
  | fuel + 1, text => do
    let (setting, rest) ← readSetting? readValue? text
    match rest with
    | ',' :: rest =>
      let (settings, rest) ← readSettings? readValue? fuel rest
      some (setting :: settings, rest)
    | '}' :: rest => some ([setting], rest)
    | _ => none

/-- A value that is no list and no table, and what follows it. -/
def readScalar? (text : List Char) : Option (Toml × List Char) :=
  match readString? text, dropPrefix? ['t', 'r', 'u', 'e'] text,
      dropPrefix? ['f', 'a', 'l', 's', 'e'] text with
  | some (value, rest), _, _ => some (.string (String.ofList value), rest)
  | _, some rest, _ => some (.truth true, rest)
  | _, _, some rest => some (.truth false, rest)
  | none, none, none => readNumber? text

/-- A value in which lists and tables stand inside one another no deeper than `depth`, and what follows
it. -/
def readValue? : (depth : Nat) → ValueReader
  | depth + 1, '[' :: rest =>
    (readItems? (readValue? depth) (rest.length + 1) rest).map fun (items, rest) =>
      (.list items, rest)
  | depth + 1, '{' :: rest =>
    match skipInline rest with
    | '}' :: rest => some (.table .inline [], rest)
    | text => do
      let (settings, rest) ← readSettings? (readValue? depth) (text.length + 1) text
      some (← inlineTable? settings, rest)
  -- At depth 0 a bracket is no scalar, so what is nested deeper is refused.
  | _, text => readScalar? text

/-! ## Statements -/

/-- A header up to the given closing brackets and the end of its line, and what follows it. -/
def readHeader? (closing text : List Char) : Option ((List String × String) × List Char) := do
  let (path, name, rest) ← readKey? text
  some ((path, name), ← afterLine? (← dropPrefix? closing rest))

/-- A statement with the end of its line, and what follows it. -/
def readStatement? (text : List Char) : Option (Statement × List Char) :=
  match text with
  | '[' :: '[' :: rest =>
    (readHeader? [']', ']'] rest).map fun ((path, name), rest) => (.nextHeader path name, rest)
  | '[' :: rest =>
    (readHeader? [']'] rest).map fun ((path, name), rest) => (.header path name, rest)
  | text => do
    let ((path, name, value), rest) ← readSetting? (readValue? maxDepth) text
    some (.setting path name value, ← afterLine? rest)

/-- The statements of a document. `fuel` bounds their number. -/
def readStatements? : (fuel : Nat) → List Char → Option (List Statement)
  | 0, _ => none
  | fuel + 1, text =>
    match skipLines false text with
    | [] => some []
    | text => do
      let (statement, rest) ← readStatement? text
      let statements ← readStatements? fuel rest
      some (statement :: statements)

def unifyLineEnds : List Char → List Char
  | [] => []
  | '\r' :: '\n' :: text => '\n' :: unifyLineEnds text
  | c :: text => c :: unifyLineEnds text

/-- A text without a byte order mark at its start. -/
def dropMark (text : List Char) : List Char :=
  (dropPrefix? [Char.ofNat 0xFEFF] text).getD text

def ofText? (text : List Char) : Option Toml :=
  let text := unifyLineEnds (dropMark text)
  (readStatements? (text.length + 1) text).bind ofStatements?

end AutoImport.Toml
