import AutoImport.Text.Bytes

/-!
# Positions as editors count them

An editor shows a place in a text as a line and a column, both counted from zero, with the column in
UTF-16 units. `Position.at?` finds the position of a byte offset. Both numbers are kept in 32 bits.
-/

namespace AutoImport.Text

def utf16Size (c : Char) : Nat :=
  if c.toNat < 0x10000 then 1 else 2

structure Position where
  line : Nat
  character : Nat
  deriving DecidableEq, Repr, Inhabited

namespace Position

/-- The position just after a character that starts at the given position. -/
def advance (position : Position) (c : Char) : Position :=
  if c == '\n' then ⟨position.line + 1, 0⟩
  else ⟨position.line, position.character + utf16Size c⟩

/-- The position just after a text that starts at the beginning of a document. -/
def after (text : List Char) : Position :=
  text.foldl advance ⟨0, 0⟩

/-- What 32 bits keep of the two numbers of a position. -/
def in32Bits (position : Position) : Position :=
  ⟨position.line % UInt32.size, position.character % UInt32.size⟩

/-- The position of a byte offset. Offsets past the end count as the end; an offset inside a
character has no position. -/
def at? (text : List Char) (offset : Nat) : Option Position :=
  if byteLength text ≤ offset then some (after text).in32Bits
  else (splitAtByte? offset text).map fun (before, _) => (after before).in32Bits

end Position

end AutoImport.Text
