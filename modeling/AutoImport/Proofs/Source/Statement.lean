import AutoImport.Proofs.Source.Reading
import AutoImport.Proofs.Source.Word
import AutoImport.Source.Exports

/-!
# The names in the statements of a source file

Names are words, words joined by dots where they name a namespace, and strings or words between the braces
of an export. A statement is proper when its names are of these forms, and it is so when the parts of its
tree are.
-/

namespace AutoImport.Source

open Text Peg

/-! ## Forms of names -/

/-- A name between the braces of an export. -/
def IsModuleName (name : List Char) : Prop :=
  IsWord name ∨ IsQuoted name

namespace Phrase

section

variable {grammar : GrammarRule → Phrase} {taken : List Char}

end

end Phrase

/-! ## Proper statements -/

/-- A tree that holds a name, if any, of the given form. -/
def HoldsName (form : List Char → Prop) (tree : Tree Label) : Prop :=
  ∀ taken, tree = .leaf .name taken → form (skipGap taken)

namespace Item

/-- A statement whose names are of the forms that the grammar has for them. -/
inductive IsProper : Item → Prop where
  | bindings {names : List String} (words : ∀ name ∈ names, IsWord name.toList) :
      IsProper (.bindings names)
  | named {kind : SymbolKind} {name : String} (isWord : IsWord name.toList) : IsProper (.named kind name)
  | space {name : String} (dotted : '.' ∈ name.toList) : IsProper (.named .unknown name)
  | quotedModule {name : String} {body : Option (List Item)}
      (each : ∀ items ∈ body, ∀ item ∈ items, IsProper item) : IsProper (.quotedModule name body)
  | ambient {declaration : Item} (inside : IsProper declaration) : IsProper (.ambient declaration)
  | exported {declaration : Item} (inside : IsProper declaration) : IsProper (.exported declaration)
  | byDefault : IsProper .byDefault
  | clause {fromModule : Bool} {entries : List ExportEntry}
      (names : ∀ entry ∈ entries,
        IsModuleName entry.localName.toList ∧ IsModuleName entry.exportedName.toList) :
      IsProper (.clause fromModule entries)
  | other : IsProper .other

variable {children : List (Tree Label)}

attribute [local simp] ofTree firstOf? bodyOf?

end Item

end AutoImport.Source
