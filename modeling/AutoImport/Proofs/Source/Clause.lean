import Mathlib.Data.List.Forall2
import AutoImport.Proofs.Source.Grammar
import AutoImport.Proofs.Source.Scope

/-!
# The kinds that export clauses report

An export clause of a file reports for each name the kind of the first statement of the file that declares
the name without exporting it. A clause in a quoted module does not know the declarations around it.
-/

namespace AutoImport.Source

namespace Item

variable {items : List Item} {name : String}

end Item

end AutoImport.Source
