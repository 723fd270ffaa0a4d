import AutoImport.Package.Basic
import AutoImport.Proofs.Import.SharedKey

/-!
# The modules of a package

The key of a file of a package is made of the names on the way to it, without the extension and without
an `index` at the end. It is told here which keys stand for the package itself, and when two keys that
differ give the same specifier.
-/

namespace AutoImport

open Text Component AutoImport.Path

namespace Package

/-! ## Keys -/

/-- Names with slashes between them. -/
def textOf (names : List String) : List Char :=
  joinWith ['/'] (names.map String.toList)

/-- The names on the way to a file of a package, from the directory of the package. -/
structure IsFile (names : List String) : Prop where
  nonempty : names ≠ []
  named : ∀ name ∈ names, IsEntryName name

theorem IsFile.exists_concat {names : List String} (file : IsFile names) :
    ∃ front fileName, names = front ++ [fileName] ∧ ∀ name ∈ front ++ [fileName], IsEntryName name := by
  refine ⟨names.dropLast, names.getLast file.nonempty,
    (List.dropLast_concat_getLast file.nonempty).symm, ?_⟩
  rw [List.dropLast_concat_getLast file.nonempty]
  exact file.named

theorem splitOn_textOf {names : List String} (nonempty : names ≠ [])
    (plain : ∀ name ∈ names, '/' ∉ name.toList) :
    splitOn '/' (textOf names) = names.map String.toList := by
  apply splitOn_joinWith (by simpa using nonempty)
  intro piece member
  rcases List.mem_map.mp member with ⟨name, inside, rfl⟩
  exact plain name inside

theorem keyOf_textOf {front : List String} {fileName : String}
    (named : ∀ name ∈ front ++ [fileName], IsEntryName name) :
    keyOf (textOf (front ++ [fileName])) = textOf (keyPieces front fileName) := by
  have key := congrArg String.toList (moduleKey_ofNames named)
  rwa [moduleKey, slashed_ofNames named, String.toList_ofList, String.toList_ofList] at key

theorem stemOf_ne_nil {fileName : String} (named : IsEntryName fileName) :
    (stemOf fileName).toList ≠ [] := by
  rcases exists_stripSourceExtension_append fileName.toList with ⟨-, -, filled⟩
  rw [toList_stemOf]
  exact fun empty => named.ne_nil (filled empty)

theorem ne_nil_of_mem_keyPieces {front : List String} {fileName : String}
    (named : ∀ name ∈ front ++ [fileName], IsEntryName name) :
    ∀ piece ∈ keyPieces front fileName, piece.toList ≠ [] := by
  rcases List.forall_mem_append.mp named with ⟨inDirectory, isName⟩
  have fronts : ∀ piece ∈ front, piece.toList ≠ [] := fun piece member => (inDirectory piece member).ne_nil
  unfold keyPieces
  split
  · exact fronts
  · refine List.forall_mem_append.mpr ⟨fronts, List.forall_mem_singleton.mpr ?_⟩
    exact stemOf_ne_nil (List.forall_mem_singleton.mp isName)

/-- No segment of a key is empty. -/
theorem ne_nil_of_mem_splitOn_keyOf {file : List String} (isFile : IsFile file) :
    ∀ piece ∈ splitOn '/' (keyOf (textOf file)), piece ≠ [] := by
  rcases isFile.exists_concat with ⟨front, fileName, rfl, named⟩
  have plain : ∀ piece ∈ keyPieces front fileName, '/' ∉ piece.toList :=
    fun piece member => not_mem_keyPieces named _ (List.mem_map_of_mem member)
  rw [keyOf_textOf named, splitOn_textOf (keyPieces_ne_nil front fileName) plain]
  intro piece member
  rcases List.mem_map.mp member with ⟨name, inside, rfl⟩
  exact ne_nil_of_mem_keyPieces named name inside

section Key

variable {file : List String} (isFile : IsFile file)
include isFile

theorem keyOf_ne_nil : keyOf (textOf file) ≠ [] := by
  intro empty
  have filled := ne_nil_of_mem_splitOn_keyOf isFile
  rw [empty] at filled
  exact filled [] (by simp [splitOn]) rfl

theorem keyOf_ne_slash_cons (rest : List Char) : keyOf (textOf file) ≠ '/' :: rest := by
  intro shape
  have filled := ne_nil_of_mem_splitOn_keyOf isFile
  rw [shape, splitOn_slash_cons] at filled
  exact filled [] List.mem_cons_self rfl

theorem keyOf_ne_append_slash (front : List Char) : keyOf (textOf file) ≠ front ++ ['/'] := by
  intro shape
  have filled := ne_nil_of_mem_splitOn_keyOf isFile
  rw [shape, splitOn_append_separator] at filled
  exact filled [] (by simp [splitOn]) rfl

end Key

/-! ## Keys as they are seen from the entry -/

variable {package : Package}

/-- Whether a module lies below the directory of the entry. -/
def LiesBelowEntry (package : Package) (key : List Char) : Prop :=
  package.entryDirectory ≠ [] ∧ ∃ rest, key = package.entryDirectory ++ '/' :: rest

theorem belowEntry_append (nonempty : package.entryDirectory ≠ []) (rest : List Char) :
    package.belowEntry (package.entryDirectory ++ '/' :: rest) = rest := by
  have cut : dropPrefix? package.entryDirectory (package.entryDirectory ++ '/' :: rest) =
      some ('/' :: rest) := dropPrefix?_eq_some_iff.mpr rfl
  rw [belowEntry, if_neg (by simpa using nonempty), cut]
  rfl

theorem belowEntry_of_not_liesBelowEntry {key : List Char} (outside : ¬package.LiesBelowEntry key) :
    package.belowEntry key = key := by
  rw [belowEntry]
  split
  · rfl
  · rename_i filled
    split
    · rename_i rest cut
      exact absurd ⟨by simpa using filled, rest, dropPrefix?_eq_some_iff.mp cut⟩ outside
    · rfl

theorem belowEntry_inj {key other : List Char}
    (alike : package.LiesBelowEntry key ↔ package.LiesBelowEntry other) :
    package.belowEntry key = package.belowEntry other ↔ key = other := by
  by_cases below : package.LiesBelowEntry key
  · rcases below with ⟨nonempty, rest, rfl⟩
    rcases alike.mp ⟨nonempty, rest, rfl⟩ with ⟨-, otherRest, rfl⟩
    simp [belowEntry_append nonempty]
  · rw [belowEntry_of_not_liesBelowEntry below, belowEntry_of_not_liesBelowEntry (mt alike.mpr below)]

/-- Two modules come to the same seen from the directory of the entry: they are one there, or one of
them is the index of the other. -/
def MeetAtEntry (package : Package) (key other : List Char) : Prop :=
  package.belowEntry key = package.belowEntry other ∨
    IsIndexOf (package.belowEntry key) (package.belowEntry other) ∨
      IsIndexOf (package.belowEntry other) (package.belowEntry key)

/-- The modules that stand for the package: the entry, and an index that is left over at the top or in
the directory of the entry. -/
def ownKeys (package : Package) : List (List Char) :=
  [package.entryKey, indexStem, indexStem ++ '/' :: indexStem,
    package.entryDirectory ++ '/' :: indexStem,
    package.entryDirectory ++ '/' :: (indexStem ++ '/' :: indexStem)]

end Package

end AutoImport
