import AutoImport.Source.Exports

/-!
# What the statements of a source file declare and export

A file has a scope of its own, and each quoted module that it describes has one. The exports of a file
are those of the statements in these scopes, in the order of the statements.
-/

namespace AutoImport.Source.Item

/-- A statement stands in a file itself, or in the quoted module of the given name in it. -/
def StandsIn (items : List Item) : Option String → Item → Prop
  | none, item => item ∈ items
  | some name, item => ∃ body, .ambient (.quotedModule name (some body)) ∈ items ∧ item ∈ body

end AutoImport.Source.Item
