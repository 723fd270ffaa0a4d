import AutoImport.Text.Search

/-!
# Contents of files

A file holds text, or bytes that are no text. Bytes that are text in UTF-8 are always kept as text.
-/

namespace AutoImport

open Text

inductive FileContent where
  | text (written : String)
  /-- Bytes that are not valid UTF-8. -/
  | bytes (raw : List UInt8)
  deriving DecidableEq, Repr, Inhabited

namespace FileContent

/-- The text that bytes are in UTF-8, if they are valid. -/
def decode? (raw : List UInt8) : Option String :=
  String.fromUTF8? ⟨raw.toArray⟩

def ofBytes (raw : List UInt8) : FileContent :=
  match decode? raw with
  | some written => .text written
  | none => .bytes raw

def text? : FileContent → Option String
  | .text written => some written
  | .bytes _ => none

def splitLines : List UInt8 → List (List UInt8)
  | [] => [[]]
  | b :: rest =>
    if b == 10 then [] :: splitLines rest
    else
      match splitLines rest with
      | [] => [[b]]
      | line :: lines => (b :: line) :: lines

/-- A line without a carriage return that ends it. -/
def dropReturn (line : List Char) : List Char :=
  (dropSuffix? ['\r'] line).getD line

/-- Lines of which the last one, if it is empty, ends the line before it. -/
def dropLastEmpty {α : Type} (lines : List (List α)) : List (List α) :=
  if (lines.getLast?.map List.isEmpty).getD false then lines.dropLast else lines

/-- The lines of a file up to the first one that is no text, and whether that is all of them. -/
def lines (content : FileContent) : List (List Char) × Bool :=
  match content with
  | .text written => ((dropLastEmpty (splitOn '\n' written.toList)).map dropReturn, true)
  | .bytes raw =>
    -- Each line is decoded by itself: what precedes the bytes that are no text is still read.
    let decoded := (dropLastEmpty (splitLines raw)).map decode?
    ((decoded.takeWhile Option.isSome).filterMap fun line =>
      line.map fun written => dropReturn written.toList, decoded.all Option.isSome)

end FileContent

end AutoImport
