import AutoImport.Text.Search
import AutoImport.Toml.Number

/-!
# Strings of TOML

A string stands in double quotes, where a backslash starts an escape, or in single quotes, where nothing
does. With three quotes on each side it may go over several lines. `writeString` picks the plainest of
these that shows a text as it is.
-/

namespace AutoImport.Toml

open Text

/-! ## Reading -/

/-- Whether a character may stand for itself in a string: all may but control characters other than the
tab. -/
def isShowable (c : Char) : Bool :=
  c == '\t' || (32 ≤ c.toNat && c.toNat != 127)

def isShowableInLines (c : Char) : Bool :=
  c == '\n' || isShowable c

def escaped? : Char → Option Char
  | 'b' => some (Char.ofNat 8)
  | 't' => some '\t'
  | 'n' => some '\n'
  | 'f' => some (Char.ofNat 12)
  | 'r' => some '\r'
  | '"' => some '"'
  | '\\' => some '\\'
  | _ => none

/-- The character whose number hexadecimal digits spell. -/
def numbered? (digits : List Char) : Option Char :=
  let number := numberOf 16 digits
  if digits.all isHexDigit && (number < 0xD800 || (0xDFFF < number && number ≤ 0x10FFFF)) then
    some (Char.ofNat number)
  else none

/-- A character in front of what was read up to the end of a string. -/
def prepend? (c? : Option Char) (read? : Option (List Char × List Char)) :
    Option (List Char × List Char) := do
  let c ← c?
  let (text, rest) ← read?
  some (c :: text, rest)

/-- What a string in double quotes holds up to its end, and what follows it. -/
def readBasic : List Char → Option (List Char × List Char)
  | [] => none
  | '"' :: rest => some ([], rest)
  | '\\' :: 'u' :: a :: b :: c :: d :: rest => prepend? (numbered? [a, b, c, d]) (readBasic rest)
  | '\\' :: 'U' :: a :: b :: c :: d :: e :: f :: g :: h :: rest =>
    prepend? (numbered? [a, b, c, d, e, f, g, h]) (readBasic rest)
  | '\\' :: c :: rest => prepend? (escaped? c) (readBasic rest)
  | c :: rest => prepend? (if isShowable c && c != '\\' then some c else none) (readBasic rest)

/-- What a string in single quotes holds up to its end, and what follows it. -/
def readLiteral : List Char → Option (List Char × List Char)
  | [] => none
  | '\'' :: rest => some ([], rest)
  | c :: rest => prepend? (if isShowable c then some c else none) (readLiteral rest)

/-- Whether only blanks are left of a line. -/
def endsLine (text : List Char) : Bool :=
  (text.dropWhile isInlineBlank).head? == some '\n'

/-- What a string in three double quotes holds up to its end, and what follows it. Up to two quotes in
front of the last three belong to the string. While `joining` is set, blanks and line ends are passed
over. -/
def readLongBasic : (joining : Bool) → List Char → Option (List Char × List Char)
  | _, [] => none
  | true, ' ' :: rest => readLongBasic true rest
  | true, '\t' :: rest => readLongBasic true rest
  | true, '\n' :: rest => readLongBasic true rest
  | _, '"' :: '"' :: '"' :: '"' :: '"' :: rest => some (['"', '"'], rest)
  | _, '"' :: '"' :: '"' :: '"' :: rest => some (['"'], rest)
  | _, '"' :: '"' :: '"' :: rest => some ([], rest)
  | _, '\\' :: 'u' :: a :: b :: c :: d :: rest =>
    prepend? (numbered? [a, b, c, d]) (readLongBasic false rest)
  | _, '\\' :: 'U' :: a :: b :: c :: d :: e :: f :: g :: h :: rest =>
    prepend? (numbered? [a, b, c, d, e, f, g, h]) (readLongBasic false rest)
  | _, '\\' :: c :: rest =>
    -- A backslash at the end of a line joins it to the next word.
    if endsLine (c :: rest) then readLongBasic true (c :: rest)
    else prepend? (escaped? c) (readLongBasic false rest)
  | _, c :: rest =>
    prepend? (if isShowableInLines c && c != '\\' then some c else none) (readLongBasic false rest)

def readLongLiteral : List Char → Option (List Char × List Char)
  | [] => none
  | '\'' :: '\'' :: '\'' :: '\'' :: '\'' :: rest => some (['\'', '\''], rest)
  | '\'' :: '\'' :: '\'' :: '\'' :: rest => some (['\''], rest)
  | '\'' :: '\'' :: '\'' :: rest => some ([], rest)
  | c :: rest => prepend? (if isShowableInLines c then some c else none) (readLongLiteral rest)

/-- A text without a line feed that it begins with. -/
def dropFirstLineEnd (text : List Char) : List Char :=
  (dropPrefix? ['\n'] text).getD text

def readShortString? : List Char → Option (List Char × List Char)
  | '"' :: rest => readBasic rest
  | '\'' :: rest => readLiteral rest
  | _ => none

/-- A string, and what follows it. -/
def readString? : List Char → Option (List Char × List Char)
  | '"' :: '"' :: '"' :: rest => readLongBasic false (dropFirstLineEnd rest)
  | '\'' :: '\'' :: '\'' :: rest => readLongLiteral (dropFirstLineEnd rest)
  | text => readShortString? text

/-! ## Writing -/

/-- The length of the longest run of a character, when the text goes on after a run of `run` of them. -/
def longestRunAfter (mark : Char) : (run : Nat) → List Char → Nat
  | run, [] => run
  | run, c :: text =>
    if c == mark then longestRunAfter mark (run + 1) text
    else max run (longestRunAfter mark 0 text)

def longestRun (mark : Char) (text : List Char) : Nat :=
  longestRunAfter mark 0 text

/-- A hexadecimal number of four digits. -/
def fourDigits (number : Nat) : List Char :=
  let digits := (Nat.toDigits 16 number).map Char.toUpper
  List.replicate (4 - digits.length) '0' ++ digits

/-- A character other than a quote as it stands in double quotes. -/
def writeChar (severalLines : Bool) (c : Char) : List Char :=
  if c == Char.ofNat 8 then ['\\', 'b']
  else if c == '\t' then ['\\', 't']
  else if c == '\n' then if severalLines then ['\n'] else ['\\', 'n']
  else if c == Char.ofNat 12 then ['\\', 'f']
  else if c == '\r' then ['\\', 'r']
  else if c == '\\' then ['\\', '\\']
  else if isShowable c then [c]
  else ['\\', 'u'] ++ fourDigits c.toNat

/-- A text as it stands in double quotes, after a run of `run` quotes. So many quotes as `allowed` may
stand together as they are. -/
def writeBasic (severalLines : Bool) (allowed : Nat) : (run : Nat) → List Char → List Char
  | _, [] => []
  | run, c :: text =>
    if c == '"' then
      if run < allowed then '"' :: writeBasic severalLines allowed (run + 1) text
      else ['\\', '"'] ++ writeBasic severalLines allowed 0 text
    else writeChar severalLines c ++ writeBasic severalLines allowed 0 text

/-- A text as a string. A text of several lines starts on a line of its own. -/
def writeString (text : List Char) : List Char :=
  let hasLines := text.contains '\n'
  let showable := text.all isShowableInLines
  let plain := showable && !text.contains '\\'
  let lineEnd := if hasLines then ['\n'] else []
  let double := List.replicate 3 '"'
  let single := List.replicate 3 '\''
  let long := double ++ lineEnd ++ writeBasic true 2 0 text ++ double
  let short := ['"'] ++ writeBasic false 0 0 text ++ ['"']
  if plain && longestRun '"' text == 0 && !hasLines then short
  -- Nothing can be escaped in single quotes, so they take only what stands for itself.
  else if showable && longestRun '\'' text == 0 && !hasLines then ['\''] ++ text ++ ['\'']
  else if plain && longestRun '"' text ≤ 2 then long
  else if showable && longestRun '\'' text ≤ 2 then single ++ lineEnd ++ text ++ single
  else if hasLines then long
  else short

end AutoImport.Toml
