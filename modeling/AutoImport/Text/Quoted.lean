import AutoImport.Text.Character
import AutoImport.Text.Table.Unprintable

/-!
# Quoted text

A text shown in double quotes so that every character can be told: quotes and backslashes get a
backslash, tab, line feed, carriage return and NUL have letters, and what cannot be seen is written
by its number.
-/

namespace AutoImport.Text

/-- Whether a quoted text shows a character by its number. -/
def isUnprintable (c : Char) : Bool :=
  if c.toNat < 128 then c.toNat < 32 || c.toNat == 127 else inRanges c.toNat Table.unprintableRanges

/-- A character as it stands inside double quotes. -/
def quotedChar (c : Char) : List Char :=
  if c == '"' then ['\\', '"']
  else if c == '\\' then ['\\', '\\']
  else if c == '\t' then ['\\', 't']
  else if c == '\n' then ['\\', 'n']
  else if c == '\r' then ['\\', 'r']
  else if c == Char.ofNat 0 then ['\\', '0']
  else if isUnprintable c then
    ['\\', 'u', '{'] ++ Nat.toDigits 16 c.toNat ++ ['}']
  else [c]

def quoted (text : String) : String :=
  String.ofList ('"' :: text.toList.flatMap quotedChar ++ ['"'])

end AutoImport.Text
