import AutoImport.Text.Search

/-!
# The header of a document

The header is an interpreter line and the comments at the top of a document. A comment belongs to it
when a blank line or the end of the document follows; a comment right above code documents the code.
-/

namespace AutoImport

open Text

/-- The number of lines of the header. `seen` lines lie behind, of which `header` are known to belong
to it, and `inBlock` says whether a block comment is open. -/
def headerLinesFrom (seen header : Nat) (inBlock : Bool) : List (List Char) → Nat
  | [] => seen
  | line :: lines =>
    let content := trim line
    if inBlock then headerLinesFrom (seen + 1) header (!contains ['*', '/'] content) lines
    else if seen == 0 && startsWith ['#', '!'] content then
      headerLinesFrom (seen + 1) (seen + 1) false lines
    else if startsWith ['/', '*'] content then
      headerLinesFrom (seen + 1) header (!contains ['*', '/'] content) lines
    -- A blank line closes what came before it, and the comments behind it may still be the header.
    else if content.isEmpty && seen != 0 then headerLinesFrom (seen + 1) (seen + 1) false lines
    else if startsWith ['/', '/'] content then headerLinesFrom (seen + 1) header false lines
    -- Code: the comments since the last blank line belong to it.
    else header

/-- A document cut in two after its header. -/
def splitHeader (text : List Char) : List Char × List Char :=
  let lines := linesWithEnds text
  let count := headerLinesFrom 0 0 false lines
  ((lines.take count).flatten, (lines.drop count).flatten)

end AutoImport
