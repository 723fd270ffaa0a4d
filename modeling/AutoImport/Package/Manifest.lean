import AutoImport.Package.Json

/-!
# Package manifests

What the manifest of an installed package says about how the package is imported.
-/

namespace AutoImport

structure Manifest where
  name : Option String
  types : Option String
  typings : Option String
  main : Option String
  deriving DecidableEq, Repr, Inhabited

namespace Manifest

/-- The text of a field, which may be absent or `null`. A field that holds anything else is an
error. -/
def fieldText? : Option Json → Option (Option String)
  | none | some .null => some none
  | some (.string (some text)) => some (some text)
  | some _ => none

/-- The only value of a name, if there is one. A name with two values is an error. -/
def onlyMember? (members : List (Option String × Json)) (name : String) : Option (Option Json) :=
  match members.filter fun member => member.1 == some name with
  | [] => some none
  | [member] => some (some member.2)
  | _ => none

def ofFields? (name types typings main : Option Json) : Option Manifest := do
  some ⟨← fieldText? name, ← fieldText? types, ← fieldText? typings, ← fieldText? main⟩

/-- The manifest that a value of JSON is: an object with the fields as members among others, or a list
of exactly the fields. -/
def ofJson? : Json → Option Manifest
  | .object members => do
    let member (name : String) := onlyMember? members name
    -- A name that is no text spoils the whole object, even beside the fields.
    if members.all fun member => member.1.isSome then
      ofFields? (← member "name") (← member "types") (← member "typings") (← member "main")
    else none
  | .list [name, types, typings, main] => ofFields? (some name) (some types) (some typings) (some main)
  | _ => none

def ofText? (text : String) : Option Manifest :=
  (Json.ofText? text.toList).bind ofJson?

/-- The file that stands for the package: its declarations, or else its code, or else its index. -/
def entry (manifest : Manifest) : String :=
  (manifest.types.or (manifest.typings.or manifest.main)).getD "index"

end Manifest

end AutoImport
