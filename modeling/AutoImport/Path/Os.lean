import AutoImport.Files.Content
import AutoImport.Path.Basic
import AutoImport.Text.Utf8

/-!
# Paths of the file system

The file system takes any bytes for a name, so a path need not be text. It is taken apart by its
bytes, of which only those of the slash and the dot mean anything.
-/

namespace AutoImport

open Text

structure OsPath where
  bytes : List UInt8
  deriving DecidableEq, Repr, Inhabited

namespace OsPath

/-- The path that a text spells. -/
def ofText (text : String) : OsPath :=
  ⟨bytesOf text.toList⟩

/-- A path with one letter for each byte. -/
def byLetters (path : OsPath) : Path :=
  ⟨String.ofList (path.bytes.map letterOf)⟩

/-- The text that a name by letters is, if its bytes are any. -/
def readName? (name : String) : Option String :=
  FileContent.decode? (name.toList.map byteOf)

end OsPath

end AutoImport
