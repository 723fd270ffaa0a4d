/-!
# Byte offsets

An editor names places in a text by byte offsets in UTF-8. Here a text is its list of characters, so
an offset is a sum of character sizes, and only some offsets are places between two characters.
-/

namespace AutoImport.Text

/-- The number of bytes that a text takes in UTF-8. -/
def byteLength : List Char → Nat
  | [] => 0
  | c :: text => c.utf8Size + byteLength text

/-- A text cut in two at a byte offset. There is no cut inside a character or past the end. -/
def splitAtByte? : (offset : Nat) → List Char → Option (List Char × List Char)
  | 0, text => some ([], text)
  | _ + 1, [] => none
  | offset + 1, c :: text =>
    if c.utf8Size ≤ offset + 1 then
      (splitAtByte? (offset + 1 - c.utf8Size) text).map fun (before, after) => (c :: before, after)
    else none

end AutoImport.Text
