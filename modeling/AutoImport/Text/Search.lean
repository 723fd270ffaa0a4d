import AutoImport.Text.Character

/-!
# Searching and cutting text

Text is worked on as its list of characters. This file holds the cuts that the rest of the library
is written with: prefixes and suffixes, trimming, containment, and splitting at a character.
-/

namespace AutoImport.Text

/-- What follows `start` in a text that begins with it. -/
def dropPrefix? : (start text : List Char) → Option (List Char)
  | [], text => some text
  | _ :: _, [] => none
  | c :: start, d :: text => if c == d then dropPrefix? start text else none

/-- What precedes `ending` in a text that ends with it. -/
def dropSuffix? (ending text : List Char) : Option (List Char) :=
  (dropPrefix? ending.reverse text.reverse).map List.reverse

def startsWith (start text : List Char) : Bool :=
  (dropPrefix? start text).isSome

def endsWith (ending text : List Char) : Bool :=
  (dropSuffix? ending text).isSome

def contains (part : List Char) : (text : List Char) → Bool
  | [] => part.isEmpty
  | c :: text => startsWith part (c :: text) || contains part text

def trimStart (text : List Char) : List Char :=
  text.dropWhile isBlank

/-- A list without its last items as far as they satisfy a test. -/
def dropEndWhile {α : Type} (test : α → Bool) (items : List α) : List α :=
  (items.reverse.dropWhile test).reverse

def trimEnd (text : List Char) : List Char :=
  dropEndWhile isBlank text

/-- A text without the blanks at its two ends. -/
def trim (text : List Char) : List Char :=
  trimEnd (trimStart text)

/-- The pieces of a text between the occurrences of a character; there is always one. -/
def splitOn (separator : Char) : List Char → List (List Char)
  | [] => [[]]
  | c :: text =>
    if c == separator then [] :: splitOn separator text
    else
      match splitOn separator text with
      | [] => [[c]]
      | piece :: pieces => (c :: piece) :: pieces

/-- The lines of a text, each with the line feed that ends it. -/
def linesWithEnds : List Char → List (List Char)
  | [] => []
  | c :: text =>
    if c == '\n' then [c] :: linesWithEnds text
    else
      match linesWithEnds text with
      | [] => [[c]]
      | line :: lines => (c :: line) :: lines

def spanWhile (test : Char → Bool) (text : List Char) : List Char × List Char :=
  (text.takeWhile test, text.dropWhile test)

/-- A text with the letters of ASCII in lower case. -/
def asciiLowercase (text : List Char) : List Char :=
  text.map Char.toLower

/-- The pieces joined to one text with a separator between neighbours. -/
def joinWith (separator : List Char) : List (List Char) → List Char
  | [] => []
  | [piece] => piece
  | piece :: pieces => piece ++ separator ++ joinWith separator pieces

end AutoImport.Text
