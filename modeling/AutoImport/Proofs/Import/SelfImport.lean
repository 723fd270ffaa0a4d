import AutoImport.Import.Resolve
import AutoImport.Proofs.Import.Specifier
import AutoImport.Proofs.Path.Order

/-!
# Imports of a file into itself

An import is refused when the document is spelled like the file of the symbol. Two spellings lead to one
file when they have one normal form. Where such spellings differ, the file is not recognised, and what comes
out is the specifier by which a file reaches itself.
-/

namespace AutoImport

open Text Component AutoImport.Path

/-! ## One file -/

/-- Paths with one normal form start alike. -/
theorem Path.isAbsolute_congr {left right : Path} (same : left.normalize.Same right.normalize) :
    left.isAbsolute = right.isAbsolute := by
  rw [Bool.eq_iff_iff, isAbsolute_eq_true_iff, isAbsolute_eq_true_iff, same]

/-- The specifier by which a file reaches itself. -/
def Path.ownSpecifier? (path : Path) : Option String :=
  path.normalize.fileName?.bind fun fileName =>
    if hasFileStem fileName then
      some (if stemOf fileName = "index" then "." else "./" ++ stemOf fileName)
    else none

theorem ofList_joinWith_specifierPieces (fileName : String) :
    String.ofList (joinWith ['/'] (specifierPieces [] fileName)) =
      if stemOf fileName = "index" then "." else "./" ++ stemOf fileName := by
  apply String.toList_inj.mp
  rw [String.toList_ofList, specifierPieces]
  split
  · rfl
  · rw [String.toList_append]
    rfl

/-- A document that is the file of a module, however the two are spelled, reaches the module by the
specifier of its own file. -/
theorem relativeSpecifier?_self {document modulePath : Path}
    (same : document.normalize.Same modulePath.normalize) :
    relativeSpecifier? document modulePath = modulePath.ownSpecifier? := by
  have start := isAbsolute_congr same
  rw [Same, components_normalize, components_normalize] at same
  by_cases named : ∃ fileName, modulePath.normalize.fileName? = some fileName ∧
      hasFileStem fileName = true
  · rcases named with ⟨fileName, named, stemmed⟩
    rcases exists_steps_of_fileName? named with ⟨steps, target, all⟩
    have above : (parentComponents? (normalizeComponents document.components)).getD [] =
        anchor modulePath.isAbsolute ++ (steps ++ []) := by
      rw [same, target, ← List.append_assoc, parentComponents?_concat_name, List.append_nil]
      rfl
    rw [← List.append_nil steps] at target all
    rw [relativeSpecifier?_eq above target all stemmed (by simp [Apart]) start]
    simp [ownSpecifier?, named, stemmed, ofList_joinWith_specifierPieces]
  · have lost : relativeSpecifier? document modulePath = none := by
      rw [Option.eq_none_iff_forall_ne_some]
      intro specifier found
      exact named (exists_of_relativeSpecifier? found).2
    rw [lost, ownSpecifier?]
    cases file : modulePath.normalize.fileName? with
    | none => rfl
    | some fileName =>
        have stemless : ¬hasFileStem fileName = true := fun stemmed => named ⟨fileName, file, stemmed⟩
        exact (if_neg stemless).symm

/-! ## The error -/

/-- The error of an import comes from the specifier, or it is about a binding of the document. -/
theorem ImportStyle.importSymbol_error {style : ImportStyle} {document : Path} {text : List Char}
    {symbol : ExportedSymbol} {error : ImportError}
    (failed : style.importSymbol document text symbol = .error error) :
    resolveModule document symbol = .error error ∨
      ∃ name existing, error = .ambiguousBinding name existing := by
  rw [importSymbol] at failed
  cases resolved : resolveModule document symbol with
  | error other =>
      left
      simpa [resolved, bind, Except.bind] using failed
  | ok specifier =>
      right
      simp only [resolved, bind, Except.bind] at failed
      split at failed
      · split at failed
        · simp at failed
        · exact ⟨_, _, (Except.error.inj failed).symm⟩
      · split at failed <;> simp at failed

/-- A document is refused as the file of the symbol. -/
structure ImportStyle.RefusesFile (style : ImportStyle) (document : Path) (text : List Char)
    (symbol : ExportedSymbol) : Prop where
  resolved : resolveModule document symbol = .error (.selfImport symbol.name document)
  imported : style.importSymbol document text symbol = .error (.selfImport symbol.name document)

/-- A document is not taken for the file of the symbol. -/
structure ImportStyle.PassesFile (style : ImportStyle) (document : Path) (text : List Char)
    (symbol : ExportedSymbol) : Prop where
  resolved : ∀ name file, resolveModule document symbol ≠ .error (.selfImport name file)
  imported : ∀ name file, style.importSymbol document text symbol ≠ .error (.selfImport name file)

theorem refusesFile_of_same {document : Path} {symbol : ExportedSymbol}
    (same : symbol.path.Same document) (style : ImportStyle) (text : List Char) :
    style.RefusesFile document text symbol := by
  have resolved : resolveModule document symbol = .error (.selfImport symbol.name document) := by
    rw [resolveModule, if_pos (ExportedSymbol.isDeclaredIn_iff.mpr same)]
  refine ⟨resolved, ?_⟩
  simp only [ImportStyle.importSymbol, resolved, bind, Except.bind]

theorem passesFile_of_not_same {document : Path} {symbol : ExportedSymbol}
    (apart : ¬symbol.path.Same document) (style : ImportStyle) (text : List Char) :
    style.PassesFile document text symbol := by
  have resolved : ∀ name file, resolveModule document symbol ≠ .error (.selfImport name file) := by
    intro name file
    rw [resolveModule, if_neg (mt ExportedSymbol.isDeclaredIn_iff.mp apart)]
    cases symbol.specifier with
    | some specifier => simp
    | none =>
        cases relativeSpecifier? document symbol.path with
        | some specifier => simp
        | none => simp
  refine ⟨resolved, fun name file failed => ?_⟩
  rcases ImportStyle.importSymbol_error failed with unresolved | ⟨_, _, ambiguous⟩
  · exact resolved name file unresolved
  · simp at ambiguous

/-- An import is refused when the document is the file of the symbol, however the two are spelled, and
not for this reason when it is another file. -/
structure ImportStyle.RefusesOwnFile (style : ImportStyle) (document : Path) (text : List Char)
    (symbol : ExportedSymbol) : Prop where
  refuses : document.normalize.Same symbol.path.normalize → style.RefusesFile document text symbol
  passes : ¬document.normalize.Same symbol.path.normalize → style.PassesFile document text symbol

theorem Path.Same.normalize {left right : Path} (same : left.Same right) :
    left.normalize.Same right.normalize := by
  rw [Same, components_normalize, components_normalize, same]

theorem Path.same_of_isNormal {left right : Path} (normal : IsNormal left.components)
    (other : IsNormal right.components) (same : left.normalize.Same right.normalize) :
    left.Same right := by
  rw [Same, components_normalize, components_normalize, normal.normalizeComponents_eq,
    other.normalizeComponents_eq] at same
  exact same

/-- A document is refused as the file of the symbol exactly when the two are spelled alike. So another
file is never refused, and the file itself is not recognised when it is spelled differently: then the
specifier is the one by which the file reaches itself. Two paths in normal form are spelled alike when they
lead to one file. -/
theorem importSymbol_refusesOwnFile_iff {symbol : ExportedSymbol} (unpackaged : symbol.specifier = none)
    (style : ImportStyle) (document : Path) (text : List Char) :
    (style.RefusesOwnFile document text symbol ↔
      (document.normalize.Same symbol.path.normalize → symbol.path.Same document)) ∧
    (¬document.normalize.Same symbol.path.normalize → style.PassesFile document text symbol) ∧
    (document.normalize.Same symbol.path.normalize → ¬symbol.path.Same document →
      style.PassesFile document text symbol ∧
        resolveModule document symbol =
          match symbol.path.ownSpecifier? with
          | some specifier => .ok specifier
          | none => .error (.unresolved symbol.name symbol.path)) ∧
    (IsNormal document.components → IsNormal symbol.path.components →
      style.RefusesOwnFile document text symbol) := by
  have passes (other : ¬document.normalize.Same symbol.path.normalize) :
      style.PassesFile document text symbol :=
    passesFile_of_not_same (fun same => other same.symm.normalize) style text
  have refusesOwn (alike : document.normalize.Same symbol.path.normalize → symbol.path.Same document) :
      style.RefusesOwnFile document text symbol :=
    ⟨fun same => refusesFile_of_same (alike same) style text, passes⟩
  refine ⟨⟨?_, refusesOwn⟩, passes, ?_, ?_⟩
  · intro refusesOwnFile same
    by_contra apart
    have passesFile := passesFile_of_not_same apart style text
    exact passesFile.resolved _ _ (refusesOwnFile.refuses same).resolved
  · intro same apart
    refine ⟨passesFile_of_not_same apart style text, ?_⟩
    rw [resolveModule, if_neg (mt ExportedSymbol.isDeclaredIn_iff.mp apart), unpackaged]
    cases own : symbol.path.ownSpecifier? with
    | none => simp only [relativeSpecifier?_self same, own]
    | some specifier => simp only [relativeSpecifier?_self same, own]
  · intro normal other
    exact refusesOwn fun same => (same_of_isNormal normal other same).symm

/-- A document that is spelled with a detour is not recognised as the file of the symbol. -/
theorem importSymbol_refusesOwnFile_iff_of_detour :
    ImportStyle.standard.PassesFile ⟨"src/x/../a.ts"⟩ [] ⟨"B", .classLike, ⟨"src/a.ts"⟩, none⟩ ∧
      resolveModule ⟨"src/x/../a.ts"⟩ ⟨"B", .classLike, ⟨"src/a.ts"⟩, none⟩ = .ok "./a" := by
  have own : (Path.mk "src/a.ts").ownSpecifier? = some "./a" := by decide +kernel
  have other := (@importSymbol_refusesOwnFile_iff ⟨"B", .classLike, ⟨"src/a.ts"⟩, none⟩ rfl .standard
    ⟨"src/x/../a.ts"⟩ []).2.2.1 (by decide +kernel) (by decide +kernel)
  simpa only [own] using other

/-- Behind a leading `.`, a file is made to import itself. -/
theorem importSymbol_into_itself :
    (Path.mk "./src/a.ts").normalize.Same (Path.mk "src/a.ts").normalize ∧
      resolveModule ⟨"./src/a.ts"⟩ ⟨"B", .classLike, ⟨"src/a.ts"⟩, none⟩ = .ok "./a" ∧
      ImportStyle.standard.importSymbol ⟨"./src/a.ts"⟩ [] ⟨"B", .classLike, ⟨"src/a.ts"⟩, none⟩ =
        .ok ⟨.inserted, "./a", .insert 0 "import \x7b B \x7d from \"./a\";\n"⟩ ∧
      ¬ImportStyle.standard.RefusesOwnFile ⟨"./src/a.ts"⟩ [] ⟨"B", .classLike, ⟨"src/a.ts"⟩, none⟩ := by
  have same : (Path.mk "./src/a.ts").normalize.Same (Path.mk "src/a.ts").normalize := by
    decide +kernel
  have resolved : resolveModule ⟨"./src/a.ts"⟩ ⟨"B", .classLike, ⟨"src/a.ts"⟩, none⟩ = .ok "./a" := by
    decide +kernel
  refine ⟨same, resolved, by decide +kernel, fun refuses => ?_⟩
  have refused := (refuses.refuses same).resolved
  rw [resolved] at refused
  simp at refused

end AutoImport
