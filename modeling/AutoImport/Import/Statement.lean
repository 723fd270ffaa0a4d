import AutoImport.Import.Declaration

/-!
# Import statements in a style

The text of a new import statement, in the quotation marks and with the final `;` that a style asks
for.
-/

namespace AutoImport

inductive QuoteStyle where
  | double
  | single
  deriving DecidableEq, Repr, Inhabited

namespace QuoteStyle

def mark : QuoteStyle → String
  | .double => "\""
  | .single => "'"

end QuoteStyle

/-- How import statements are written. -/
structure ImportStyle where
  quote : QuoteStyle
  semicolons : Bool
  deriving DecidableEq, Repr, Inhabited

namespace ImportBinding

def render (binding : ImportBinding) : String :=
  match binding.rename with
  | some rename => binding.name ++ " as " ++ rename
  | none => binding.name

end ImportBinding

namespace ImportStyle

def standard : ImportStyle :=
  ⟨.double, true⟩

/-- The statement that imports the given bindings from a module. -/
def statement (style : ImportStyle) (bindings : List ImportBinding) (specifier : String) : String :=
  "import \x7b " ++ ", ".intercalate (bindings.map ImportBinding.render) ++ " \x7d from " ++
    style.quote.mark ++ specifier ++ style.quote.mark ++ (if style.semicolons then ";" else "")

end ImportStyle

end AutoImport
