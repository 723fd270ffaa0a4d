import AutoImport.Text.Search

/-!
# JSON

Reading a text of JSON as a value. Objects keep their members in order, with repeated names.
-/

namespace AutoImport

open Text

inductive Json where
  | null
  | truth (value : Bool)
  | number
  /-- A string; there is no text where an escape names one half of a pair alone. -/
  | string (value : Option String)
  | list (items : List Json)
  | object (members : List (Option String × Json))
  deriving Inhabited

namespace Json

/-- A text without the blanks that may stand between tokens. -/
def skipBlanks (text : List Char) : List Char :=
  text.dropWhile fun c => c == ' ' || c == '\t' || c == '\n' || c == '\r'

/-! ## Strings -/

def hexDigit? (c : Char) : Option Nat :=
  if c.isDigit then some (c.toNat - '0'.toNat)
  else if 'a' ≤ c && c ≤ 'f' then some (c.toNat - 'a'.toNat + 10)
  else if 'A' ≤ c && c ≤ 'F' then some (c.toNat - 'A'.toNat + 10)
  else none

def hexNumber? (digits : List Char) : Option Nat :=
  digits.foldl (fun number? c => do
    let number ← number?
    let digit ← hexDigit? c
    some (16 * number + digit)) (some 0)

/-- The character that a letter stands for after a backslash. -/
def escaped? : Char → Option Char
  | '"' => some '"'
  | '\\' => some '\\'
  | '/' => some '/'
  | 'b' => some (Char.ofNat 8)
  | 'f' => some (Char.ofNat 12)
  | 'n' => some '\n'
  | 'r' => some '\r'
  | 't' => some '\t'
  | _ => none

/-- A number in front of numbers that were read up to the end of a string. -/
def prepend? (number? : Option Nat) (read? : Option (List Nat × List Char)) :
    Option (List Nat × List Char) := do
  let number ← number?
  let (numbers, rest) ← read?
  some (number :: numbers, rest)

/-- The numbers of the characters up to the end of a string, and what follows it. An escape stands for
a unit of sixteen bits. -/
def readString : List Char → Option (List Nat × List Char)
  | [] => none
  | '"' :: rest => some ([], rest)
  | '\\' :: 'u' :: a :: b :: c :: d :: rest => prepend? (hexNumber? [a, b, c, d]) (readString rest)
  | '\\' :: c :: rest => prepend? ((escaped? c).map Char.toNat) (readString rest)
  | c :: rest =>
    prepend? (if c.toNat < 32 || c == '\\' then none else some c.toNat) (readString rest)

/-- The text whose characters have the given numbers, when two halves of a pair make up one character. -/
def textOf? : List Nat → Option (List Char)
  | [] => some []
  | unit :: units =>
    -- The second half of a pair cannot come first; a first half needs its second.
    if 0xDC00 ≤ unit && unit ≤ 0xDFFF then none
    else if 0xD800 ≤ unit && unit ≤ 0xDBFF then
      match units with
      | [] => none
      | low :: units =>
        if 0xDC00 ≤ low && low ≤ 0xDFFF then
          (textOf? units).map
            (Char.ofNat (0x10000 + (unit - 0xD800) * 0x400 + (low - 0xDC00)) :: ·)
        else none
    else (textOf? units).map (Char.ofNat unit :: ·)

/-! ## Numbers -/

/-- What follows one or more digits. -/
def afterDigits? (text : List Char) : Option (List Char) :=
  match spanWhile Char.isDigit text with
  | ([], _) => none
  | (_, rest) => some rest

/-- What follows the whole part of a number, which has no needless zero in front. -/
def afterWhole? : List Char → Option (List Char)
  | '0' :: rest => some rest
  | text => afterDigits? text

def afterFraction? : List Char → Option (List Char)
  | '.' :: rest => afterDigits? rest
  | text => some text

/-- What follows the exponent of a number, if it has one. -/
def afterExponent? : List Char → Option (List Char)
  | c :: rest =>
    if c == 'e' || c == 'E' then
      match rest with
      | '+' :: rest | '-' :: rest => afterDigits? rest
      | rest => afterDigits? rest
    else some (c :: rest)
  | [] => some []

def afterNumber? (text : List Char) : Option (List Char) := do
  let rest ← afterWhole? ((dropPrefix? ['-'] text).getD text)
  let rest ← afterFraction? rest
  afterExponent? rest

/-! ## Values -/

mutual

/-- A value at the start of a text, and what follows it. `fuel` bounds the reading. -/
def readValue : (fuel : Nat) → List Char → Option (Json × List Char)
  | 0, _ => none
  | fuel + 1, text =>
    match skipBlanks text with
    | [] => none
    | '"' :: rest => (readString rest).map fun (units, rest) =>
      (.string ((textOf? units).map String.ofList), rest)
    | '[' :: rest =>
      match skipBlanks rest with
      | ']' :: rest => some (.list [], rest)
      | rest => (readItems fuel rest).map fun (items, rest) => (.list items, rest)
    | '{' :: rest =>
      match skipBlanks rest with
      | '}' :: rest => some (.object [], rest)
      | rest => (readMembers fuel rest).map fun (members, rest) => (.object members, rest)
    | c :: rest =>
      match dropPrefix? ['n', 'u', 'l', 'l'] (c :: rest),
          dropPrefix? ['t', 'r', 'u', 'e'] (c :: rest),
          dropPrefix? ['f', 'a', 'l', 's', 'e'] (c :: rest) with
      | some rest, _, _ => some (.null, rest)
      | _, some rest, _ => some (.truth true, rest)
      | _, _, some rest => some (.truth false, rest)
      | none, none, none => (afterNumber? (c :: rest)).map fun rest => (.number, rest)

/-- The items of a list up to its end, and what follows it. -/
def readItems : (fuel : Nat) → List Char → Option (List Json × List Char)
  | 0, _ => none
  | fuel + 1, text => do
    let (item, rest) ← readValue fuel text
    match skipBlanks rest with
    | ',' :: rest =>
      let (items, rest) ← readItems fuel rest
      some (item :: items, rest)
    | ']' :: rest => some ([item], rest)
    | _ => none

/-- The members of an object up to its end, and what follows it. -/
def readMembers : (fuel : Nat) → List Char → Option (List (Option String × Json) × List Char)
  | 0, _ => none
  | fuel + 1, text => do
    match skipBlanks text with
    | '"' :: rest =>
      let (units, rest) ← readString rest
      let name := (textOf? units).map String.ofList
      match skipBlanks rest with
      | ':' :: rest =>
        let (value, rest) ← readValue fuel rest
        match skipBlanks rest with
        | ',' :: rest =>
          let (members, rest) ← readMembers fuel rest
          some ((name, value) :: members, rest)
        | '}' :: rest => some ([(name, value)], rest)
        | _ => none
      | _ => none
    | _ => none

end

def ofText? (text : List Char) : Option Json := do
  let (value, rest) ← readValue (2 * text.length + 2) text
  if (skipBlanks rest).isEmpty then some value else none

end Json

end AutoImport
