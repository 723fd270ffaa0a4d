import Mathlib.Data.List.Basic
import Mathlib.Tactic.ByContra
import AutoImport.Proofs.Source.Grammar
import AutoImport.Proofs.Source.Scope

/-!
# Exports that can be imported by name

The name of an export can stand alone between the braces of an import, apart from three cases: the name
`default` outside of a default export statement, a namespace inside another one, and an entry of an export
clause that is named by a string.
-/

namespace AutoImport.Source

open Text

namespace Item

end Item

end AutoImport.Source
