import AutoImport.Text.Table.Word
import AutoImport.Text.Table.Alphanumeric

/-!
# Character classes

The classes of characters that the scanners of this library tell apart. Each class is the one of
Unicode; the part beyond ASCII is looked up in a table of runs.
-/

namespace AutoImport.Text

/-- Whether a code point lies in one of the given runs, which are in increasing order. -/
def inRanges (point : Nat) : List (Nat × Nat) → Bool
  | [] => false
  | (first, last) :: runs => if point < first then false else point ≤ last || inRanges point runs

/-- White space: the characters with the property White_Space. -/
def isBlank (c : Char) : Bool :=
  let point := c.toNat
  -- Below 128 only the control characters and the space count; U+0085 is beyond ASCII.
  (9 ≤ point && point ≤ 13) || point == 32 ||
    (128 ≤ point &&
      (point == 0x85 || point == 0xA0 || point == 0x1680 || (0x2000 ≤ point && point ≤ 0x200A) ||
        point == 0x2028 || point == 0x2029 || point == 0x202F || point == 0x205F ||
        point == 0x3000))

/-- A space or a tab: what may separate words on one line. -/
def isInlineBlank (c : Char) : Bool :=
  c == ' ' || c == '\t'

/-- A character that a word may consist of, in any script. -/
def isWordPart (c : Char) : Bool :=
  if c.toNat < 128 then c.isAlphanum || c == '_' else inRanges c.toNat Table.wordRanges

def isAlphanumeric (c : Char) : Bool :=
  if c.toNat < 128 then c.isAlphanum else inRanges c.toNat Table.alphanumericRanges

/-- A character that a plainly written identifier starts with: a letter of ASCII, `_` or `$`. -/
def isIdentifierStart (c : Char) : Bool :=
  c.isAlpha || c == '_' || c == '$'

/-- A character that a plainly written identifier goes on with: a word character or `$`. -/
def isIdentifierPart (c : Char) : Bool :=
  isWordPart c || c == '$'

/-- Either kind of quotation mark that a module name is written in. -/
def isQuote (c : Char) : Bool :=
  c == '"' || c == '\''

end AutoImport.Text
