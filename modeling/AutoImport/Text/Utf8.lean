/-!
# Texts as bytes

A text is UTF-8 where it is matched byte by byte or written to the disk. Bytes that need not be any
text are worked on as letters, one character below 256 for each byte.
-/

namespace AutoImport.Text

/-- The bytes of a text in UTF-8. -/
def bytesOf (text : List Char) : List UInt8 :=
  text.flatMap String.utf8EncodeChar

def letterOf (byte : UInt8) : Char :=
  Char.ofNat byte.toNat

/-- The byte that a letter stands for. -/
def byteOf (letter : Char) : UInt8 :=
  UInt8.ofNat letter.toNat

end AutoImport.Text
