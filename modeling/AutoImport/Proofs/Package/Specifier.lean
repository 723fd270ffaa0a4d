import AutoImport.Proofs.Package.Key

/-!
# Specifiers of the files of a package

The specifier of a file leaves the directory of the entry out, so that a file below it and a file
elsewhere may have one specifier, and an index that is left over stands for the package. Apart from
these cases different modules of a package have different specifiers.
-/

namespace AutoImport

open Text Component AutoImport.Path

namespace Package

variable {package : Package}

/-! ## The specifier of a key -/

/-- The part of a specifier behind the name of the package. -/
def remainder (package : Package) (key : List Char) : List Char :=
  collapseIndex (package.belowEntry key)

/-- The condition by which a file gets the bare name of its package. -/
def IsBare (package : Package) (key : List Char) : Prop :=
  key = package.entryKey ∨ package.remainder key = [] ∨ package.remainder key = indexStem

theorem specifier_cases (package : Package) (text : List Char) :
    (package.specifier text = package.name ∧ package.IsBare (keyOf text)) ∨
      (package.specifier text = package.name ++ "/" ++ String.ofList (package.remainder (keyOf text)) ∧
        ¬package.IsBare (keyOf text)) := by
  have test : (keyOf text == package.entryKey || (package.remainder (keyOf text)).isEmpty ||
      package.remainder (keyOf text) == indexStem) = true ↔ package.IsBare (keyOf text) := by
    simp [IsBare, or_assoc]
  by_cases bare : package.IsBare (keyOf text)
  · exact .inl ⟨if_pos (test.mpr bare), bare⟩
  · exact .inr ⟨if_neg (mt test.mp bare), bare⟩

theorem name_append_ne_name (name rest : String) : name ++ "/" ++ rest ≠ name := by
  intro same
  have lengths := congrArg (fun text : String => text.toList.length) same
  simp at lengths

theorem append_remainder_inj (name : String) {rest other : List Char} :
    name ++ "/" ++ String.ofList rest = name ++ "/" ++ String.ofList other ↔ rest = other := by
  rw [← String.toList_inj]
  simp

theorem specifier_eq_name_iff_isBare {text : List Char} :
    package.specifier text = package.name ↔ package.IsBare (keyOf text) := by
  rcases specifier_cases package text with ⟨short, bare⟩ | ⟨long, other⟩
  · exact iff_of_true short bare
  · rw [long]
    exact iff_of_false (name_append_ne_name _ _) other

/-! ## The package itself -/

section File

variable {file : List String} (isFile : IsFile file)
include isFile

theorem remainder_ne_nil : package.remainder (keyOf (textOf file)) ≠ [] := by
  rw [remainder, ne_eq, collapseIndex_eq_nil_iff]
  by_cases below : package.LiesBelowEntry (keyOf (textOf file))
  · rcases below with ⟨nonempty, rest, shape⟩
    rw [shape, belowEntry_append nonempty]
    rintro rfl
    exact keyOf_ne_append_slash isFile _ shape
  · rw [belowEntry_of_not_liesBelowEntry below]
    exact keyOf_ne_nil isFile

omit isFile in
/-- Of two segments `index` the second is what lies below the first. -/
theorem eq_index_of_append {front rest : List Char}
    (same : front ++ '/' :: rest = indexStem ++ '/' :: indexStem) : rest = indexStem := by
  have single := congrArg (List.count '/') same
  have plain : '/' ∉ rest := by
    rw [← List.count_eq_zero]
    simp [indexStem] at single
    omega
  exact (eq_of_append_separator plain (by decide) same).2

theorem remainder_eq_index_iff : package.remainder (keyOf (textOf file)) = indexStem ↔
    keyOf (textOf file) ∈ package.ownKeys.tail := by
  rw [remainder, collapseIndex_eq_index_iff]
  simp only [ownKeys, List.tail_cons, List.mem_cons, List.not_mem_nil, or_false]
  generalize shape : keyOf (textOf file) = key
  by_cases below : package.LiesBelowEntry key
  · rcases below with ⟨nonempty, rest, rfl⟩
    rw [belowEntry_append nonempty, List.append_cancel_left_eq, List.append_cancel_left_eq,
      List.cons.injEq, List.cons.injEq]
    constructor
    · rintro (rfl | rfl)
      · exact .inr (.inr (.inl ⟨rfl, rfl⟩))
      · exact .inr (.inr (.inr ⟨rfl, rfl⟩))
    · -- A key at the top lies below the entry only if the directory of the entry is called `index`.
      rintro (top | top | ⟨-, same⟩ | ⟨-, same⟩)
      · have inside : '/' ∈ indexStem := by
          rw [← top]
          simp
        exact absurd inside (by decide)
      · exact .inl (eq_index_of_append top)
      · exact .inl same
      · exact .inr same
  · rw [belowEntry_of_not_liesBelowEntry below]
    have outside {rest : List Char} : key ≠ package.entryDirectory ++ '/' :: rest := by
      rintro rfl
      by_cases empty : package.entryDirectory = []
      · rw [empty] at shape
        exact keyOf_ne_slash_cons isFile _ shape
      · exact below ⟨empty, rest, rfl⟩
    simp [outside]

/-- A file has the bare name of its package exactly if its key is one of the package's own. -/
theorem specifier_eq_name_iff :
    package.specifier (textOf file) = package.name ↔ keyOf (textOf file) ∈ package.ownKeys := by
  rw [specifier_eq_name_iff_isBare, IsBare, or_iff_right (remainder_ne_nil isFile),
    remainder_eq_index_iff isFile]
  exact List.mem_cons.symm

theorem specifier_eq_of_not_mem (other : keyOf (textOf file) ∉ package.ownKeys) :
    package.specifier (textOf file) =
      package.name ++ "/" ++ String.ofList (package.remainder (keyOf (textOf file))) := by
  rcases specifier_cases package (textOf file) with ⟨bare, -⟩ | ⟨long, -⟩
  · exact absurd ((specifier_eq_name_iff isFile).mp bare) other
  · exact long

end File

/-! ## Two files -/

section Files

variable {file other : List String} (isFile : IsFile file) (isOther : IsFile other)
include isFile isOther

theorem specifier_eq_iff :
    package.specifier (textOf file) = package.specifier (textOf other) ↔
      (keyOf (textOf file) ∈ package.ownKeys ∧ keyOf (textOf other) ∈ package.ownKeys) ∨
        (keyOf (textOf file) ∉ package.ownKeys ∧ keyOf (textOf other) ∉ package.ownKeys) ∧
          package.MeetAtEntry (keyOf (textOf file)) (keyOf (textOf other)) := by
  by_cases own : keyOf (textOf file) ∈ package.ownKeys
  · rw [(specifier_eq_name_iff isFile).mpr own, eq_comm, specifier_eq_name_iff isOther]
    simp [own]
  · by_cases otherOwn : keyOf (textOf other) ∈ package.ownKeys
    · rw [(specifier_eq_name_iff isOther).mpr otherOwn, specifier_eq_name_iff isFile]
      simp [own, otherOwn]
    · rw [specifier_eq_of_not_mem isFile own, specifier_eq_of_not_mem isOther otherOwn,
        append_remainder_inj, remainder, remainder, collapseIndex_eq_iff]
      simp [own, otherOwn, MeetAtEntry]

/-- Files that lie both below the directory of the entry or both elsewhere are told apart by their
specifiers, unless one of them is the index of the other or both stand for the package. -/
theorem specifier_ne (alike : package.LiesBelowEntry (keyOf (textOf file)) ↔
      package.LiesBelowEntry (keyOf (textOf other)))
    (differ : keyOf (textOf file) ≠ keyOf (textOf other))
    (own : keyOf (textOf file) ∉ package.ownKeys ∨ keyOf (textOf other) ∉ package.ownKeys)
    (noIndex : ¬(('/' :: indexStem) <:+ keyOf (textOf file)))
    (otherNoIndex : ¬(('/' :: indexStem) <:+ keyOf (textOf other))) :
    package.specifier (textOf file) ≠ package.specifier (textOf other) := by
  have suffix {key : List Char} : package.belowEntry key <:+ key := by
    by_cases below : package.LiesBelowEntry key
    · rcases below with ⟨nonempty, rest, rfl⟩
      rw [belowEntry_append nonempty]
      exact ⟨package.entryDirectory ++ ['/'], by simp⟩
    · exact ⟨[], by rw [List.nil_append, belowEntry_of_not_liesBelowEntry below]⟩
  have ends {index module key : List Char} (isIndex : IsIndexOf index module) (within : index <:+ key) :
      ('/' :: indexStem) <:+ key := by
    rcases isIndex with ⟨-, rfl, -⟩
    exact (List.suffix_append _ _).trans within
  rw [ne_eq, specifier_eq_iff isFile isOther]
  rintro (⟨left, right⟩ | ⟨-, same | index | index⟩)
  · exact own.elim (absurd left) (absurd right)
  · exact differ ((belowEntry_inj alike).mp same)
  · exact noIndex (ends index suffix)
  · exact otherNoIndex (ends index suffix)

end Files

/-- How the specifiers of a package tell its files apart. -/
structure TellsApart (package : Package) : Prop where
  /-- The files that have the bare name of the package. -/
  bare : ∀ {file}, IsFile file →
    (package.specifier (textOf file) = package.name ↔ keyOf (textOf file) ∈ package.ownKeys)
  /-- The files of different keys that share a specifier. -/
  shared : ∀ {file other}, IsFile file → IsFile other → keyOf (textOf file) ≠ keyOf (textOf other) →
    (package.specifier (textOf file) = package.specifier (textOf other) ↔
      (keyOf (textOf file) ∈ package.ownKeys ∧ keyOf (textOf other) ∈ package.ownKeys) ∨
        (keyOf (textOf file) ∉ package.ownKeys ∧ keyOf (textOf other) ∉ package.ownKeys) ∧
          package.MeetAtEntry (keyOf (textOf file)) (keyOf (textOf other)))
  /-- On one side of the directory of the entry only an index shares the specifier of another file. -/
  apart : ∀ {file other}, IsFile file → IsFile other →
    (package.LiesBelowEntry (keyOf (textOf file)) ↔ package.LiesBelowEntry (keyOf (textOf other))) →
    keyOf (textOf file) ≠ keyOf (textOf other) →
    keyOf (textOf file) ∉ package.ownKeys ∨ keyOf (textOf other) ∉ package.ownKeys →
    ¬(('/' :: indexStem) <:+ keyOf (textOf file)) → ¬(('/' :: indexStem) <:+ keyOf (textOf other)) →
    package.specifier (textOf file) ≠ package.specifier (textOf other)

theorem tellsApart (package : Package) : package.TellsApart where
  bare := specifier_eq_name_iff
  shared isFile isOther _ := specifier_eq_iff isFile isOther
  apart := specifier_ne

/-- A manifest with a name describes a package. -/
theorem ofManifest?_eq_some_iff {manifest : Manifest} {package : Package} :
    ofManifest? manifest = some package ↔
      manifest.name = some package.name ∧ package.name ≠ "" ∧
        package.entryKey = keyOf (dropCurrent manifest.entry.toList) ∧
          package.entryDirectory = directoryOf (dropCurrent manifest.entry.toList) := by
  constructor
  · intro described
    rw [ofManifest?, Option.bind_eq_bind, Option.bind_eq_some_iff] at described
    rcases described with ⟨name, named, read⟩
    split at read
    · simp at read
    · rename_i filled
      obtain rfl := Option.some.inj read
      exact ⟨named, by simpa using filled, rfl, rfl⟩
  · rintro ⟨named, nonempty, key, directory⟩
    have filled : ¬package.name.isEmpty = true := by simpa using nonempty
    simp only [ofManifest?, named, Option.bind_eq_bind, Option.bind_some, if_neg filled, ← key,
      ← directory]

theorem exists_ofManifest? {manifest : Manifest} {name : String} (named : manifest.name = some name)
    (nonempty : name ≠ "") : ∃ package, ofManifest? manifest = some package ∧ package.name = name ∧
      package.entryKey = keyOf (dropCurrent manifest.entry.toList) ∧
        package.entryDirectory = directoryOf (dropCurrent manifest.entry.toList) :=
  ⟨⟨name, _, _⟩, ofManifest?_eq_some_iff.mpr ⟨named, nonempty, rfl, rfl⟩, rfl, rfl, rfl⟩

/-- Whatever entry a manifest gives, the specifiers of the package tell its files apart but for the
package's own modules and for those that meet at the entry. -/
theorem ofManifest?_tellsApart {manifest : Manifest} {name : String}
    (named : manifest.name = some name) (nonempty : name ≠ "") :
    ∃ package, ofManifest? manifest = some package ∧ package.name = name ∧ package.TellsApart := by
  rcases exists_ofManifest? named nonempty with ⟨package, described, hasName, -⟩
  exact ⟨package, described, hasName, package.tellsApart⟩

/-- A package whose entry lies in a directory. -/
def withLibrary : Manifest :=
  ⟨some "pkg", none, none, some "lib/main.js"⟩

theorem ofManifest?_tellsApart_withLibrary :
    withLibrary.name = some "pkg" ∧ "pkg" ≠ "" ∧
      ∃ package, ofManifest? withLibrary = some package ∧ package.name = "pkg" ∧ package.TellsApart :=
  ⟨rfl, by decide, ofManifest?_tellsApart rfl (by decide)⟩

/-- A file in the directory of the entry and one outside it share a specifier, and an index outside it
shares the name of the package with the entry. -/
theorem specifier_not_injective :
    ∃ package, ofManifest? withLibrary = some package ∧
      (keyOf (textOf ["lib", "util.ts"]) ≠ keyOf (textOf ["util.ts"]) ∧
        package.specifier (textOf ["lib", "util.ts"]) = "pkg/util" ∧
          package.specifier (textOf ["util.ts"]) = "pkg/util") ∧
      keyOf (textOf ["lib", "main.ts"]) ≠ keyOf (textOf ["index.ts"]) ∧
        package.specifier (textOf ["lib", "main.ts"]) = "pkg" ∧
          package.specifier (textOf ["index.ts"]) = "pkg" :=
  ⟨⟨"pkg", "lib/main".toList, "lib".toList⟩, by decide +kernel⟩

end Package

end AutoImport
