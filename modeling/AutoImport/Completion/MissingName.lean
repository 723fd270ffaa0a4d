import AutoImport.Text.Search

/-!
# Names that a compiler misses

The name in a diagnostic of the form `Cannot find name 'x'.`
-/

namespace AutoImport

open Text

/-- The text before the first quotation mark and point, if both stand on its line. -/
def quotedBeforePoint? : List Char → Option (List Char)
  | [] => none
  | c :: text =>
    if isQuote c && text.head? == some '.' then some []
    -- The name is the shortest that fits, and never goes on past its line.
    else if c == '\n' then none
    else (quotedBeforePoint? text).map (c :: ·)

/-- The text that a diagnostic quotes as a missing name, at the first place where it does. -/
def quotedMissing? : List Char → Option (List Char)
  | [] => none
  | c :: text =>
    match (dropPrefix? "Cannot find name ".toList (c :: text)).bind quotedName? with
    | some name => some name
    | none => quotedMissing? text
where
  quotedName? : List Char → Option (List Char)
    | mark :: text => if isQuote mark then quotedBeforePoint? text else none
    | [] => none

/-- The name that a diagnostic misses, if it is not empty. -/
def missingName? (message : String) : Option String :=
  match quotedMissing? message.toList with
  | none | some [] => none
  | some name => some (String.ofList name)

end AutoImport
