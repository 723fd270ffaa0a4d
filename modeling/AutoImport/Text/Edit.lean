import AutoImport.Text.Position

/-!
# Text edits

An edit replaces a range of bytes of a document. It can be applied when both ends of the range are
places between two characters of the document.
-/

namespace AutoImport.Text

/-- The replacement of the bytes from `start` to `stop` by a new text. -/
structure TextEdit where
  start : Nat
  stop : Nat
  newText : String
  deriving DecidableEq, Repr, Inhabited

namespace TextEdit

/-- The edit that puts a text at an offset. -/
def insert (offset : Nat) (newText : String) : TextEdit :=
  ⟨offset, offset, newText⟩

def isEmpty (edit : TextEdit) : Bool :=
  edit.start == edit.stop && edit.newText.isEmpty

/-- Where an edit begins and ends in a document, as an editor counts positions. -/
def positions? (edit : TextEdit) (text : List Char) : Option (Position × Position) := do
  let start ← Position.at? text edit.start
  let stop ← Position.at? text edit.stop
  some (start, stop)

def applied? (edit : TextEdit) (text : List Char) : Option (List Char) := do
  let (before, _) ← splitAtByte? edit.start text
  -- The second cut is made in the whole document: `stop` counts from its beginning as well.
  let (_, after) ← splitAtByte? edit.stop text
  some (before ++ edit.newText.toList ++ after)

end TextEdit

end AutoImport.Text
