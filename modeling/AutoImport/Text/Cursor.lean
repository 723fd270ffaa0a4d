import AutoImport.Text.Search
import AutoImport.Text.Bytes

/-!
# Reading with offsets

A cursor is what is left of a text together with the byte offset at which it begins. The readers
here move a cursor forward and keep the two in step.
-/

namespace AutoImport.Text

/-- The rest of a text and the byte offset where it begins. -/
structure Cursor where
  offset : Nat
  rest : List Char
  deriving Repr, Inhabited

namespace Cursor

/-- The cursor after the given characters, which the rest begins with. -/
def after (cursor : Cursor) (read rest : List Char) : Cursor :=
  ⟨cursor.offset + byteLength read, rest⟩

/-- The longest run of characters that satisfy a test, and the cursor after it. -/
def takeWhile (test : Char → Bool) (cursor : Cursor) : List Char × Cursor :=
  let (read, rest) := spanWhile test cursor.rest
  (read, cursor.after read rest)

def skipWhile (test : Char → Bool) (cursor : Cursor) : Cursor :=
  (cursor.takeWhile test).2

/-- The cursor after the given characters, if they come next. -/
def expect? (expected : List Char) (cursor : Cursor) : Option Cursor :=
  (dropPrefix? expected cursor.rest).map (cursor.after expected)

/-- The cursor after the given characters if they come next, else where it stands. -/
def skip (expected : List Char) (cursor : Cursor) : Cursor :=
  (cursor.expect? expected).getD cursor

def peek? (cursor : Cursor) : Option Char :=
  cursor.rest.head?

end Cursor

end AutoImport.Text
