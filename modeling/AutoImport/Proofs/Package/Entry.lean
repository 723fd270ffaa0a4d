import AutoImport.Proofs.Package.Specifier

/-!
# The entry of a package

The file that the manifest names as the entry has the bare name of the package when the entry is spelled
in the plainest way, apart from any `./` in front. Other spellings of the same way are compared as they
are, so that the entry gets a longer specifier, unless it is an index at the top of the package.
-/

namespace AutoImport

open Text Component AutoImport.Path

namespace Package

/-! ## Ways and their spellings -/

theorem filterMap_splitOn_dropCurrent (text : List Char) :
    (splitOn '/' (dropCurrent text)).filterMap ofPiece? = (splitOn '/' text).filterMap ofPiece? := by
  fun_induction dropCurrent text with
  | case1 rest ih =>
      rw [ih]
      have pieces : splitOn '/' ('.' :: '/' :: rest) = ['.'] :: splitOn '/' rest := by
        simp [splitOn]
      rw [pieces]
      rfl
  | case2 text => rfl

theorem directoryOf_append_slash (front : List Char) {last : List Char} (plain : '/' ∉ last) :
    directoryOf (front ++ '/' :: last) = front := by
  have reversed : (front ++ '/' :: last).reverse = last.reverse ++ '/' :: front.reverse := by simp
  rw [directoryOf, reversed, List.dropWhile_append_of_pos (bne_of_mem_reverse plain),
    List.dropWhile_cons_of_neg (by simp), List.drop_succ_cons, List.drop_zero, List.reverse_reverse]

theorem directoryOf_of_plain {text : List Char} (plain : '/' ∉ text) : directoryOf text = [] := by
  rw [directoryOf, dropWhile_append_of_all (bne_of_mem_reverse plain)]
  rfl

theorem directoryOf_cases (text : List Char) :
    ('/' ∉ text ∧ directoryOf text = []) ∨
      ∃ last, '/' ∉ last ∧ text = directoryOf text ++ '/' :: last := by
  by_cases plain : '/' ∈ text
  · rcases List.eq_append_cons_of_mem (List.mem_reverse.mpr plain) with ⟨last, front, shape, outside⟩
    have turned : text = front.reverse ++ '/' :: last.reverse := by
      rw [← List.reverse_reverse text, shape]
      simp
    refine .inr ⟨last.reverse, by simpa using outside, ?_⟩
    rw [turned, directoryOf_append_slash _ (by simpa using outside)]
  · exact .inl ⟨plain, directoryOf_of_plain plain⟩

/-! ## Where the pieces of an entry lead -/

/-- Where the pieces of a text lead, with `.` and `..` resolved. -/
def walkOf (pieces : List (List Char)) : List Component :=
  normalizeComponents (pieces.filterMap ofPiece?)

/-- An entry goes along names as the text does that is compared with the files. -/
theorem walkOf_of_goesAlong {entry : String} {names : List String}
    (along : (Path.mk entry).GoesAlong names) :
    walkOf (splitOn '/' (dropCurrent entry.toList)) = names.map Component.name := by
  rw [walkOf, filterMap_splitOn_dropCurrent, ← filter_components_of_relative along.isAbsolute_eq_false,
    normalizeComponents, foldl_step_filter]
  exact along

theorem walkOf_names {names : List String} (named : ∀ name ∈ names, IsEntryName name) :
    walkOf (names.map String.toList) = names.map Component.name := by
  rw [walkOf, ← piecesOf_names, filterMap_ofPiece?_piecesOf (isStep_of_mem_names named)]
  exact foldl_step_names [] names

theorem length_walkOf_le (pieces : List (List Char)) : (walkOf pieces).length ≤ pieces.length := by
  have walked := length_foldl_step_le (pieces.filterMap ofPiece?) []
  have read := List.length_filterMap_le ofPiece? pieces
  rw [walkOf, normalizeComponents]
  rw [List.length_nil] at walked
  omega

theorem ofPiece?_cases (piece : List Char) :
    (∃ text, piece = text.toList ∧ ofPiece? piece = some (.name text)) ∨
      (piece = [] ∨ piece = ['.']) ∧ ofPiece? piece = none ∨
        piece = ['.', '.'] ∧ ofPiece? piece = some .parent := by
  unfold ofPiece?
  split
  · rename_i idle
    exact .inr (.inl ⟨by simpa using idle, rfl⟩)
  · split
    · rename_i dots
      exact .inr (.inr ⟨by simpa using dots, rfl⟩)
    · exact .inl ⟨String.ofList piece, by simp, rfl⟩

/-- The way of an entry ends with the last piece of its spelling if that is a name. If not, the piece
adds nothing to the way. -/
theorem walkOf_concat {init : List (List Char)} {last : List Char} {names : List String}
    (along : walkOf (init ++ [last]) = names.map Component.name) :
    (∃ front text, last = text.toList ∧ names = front ++ [text] ∧
        walkOf init = front.map Component.name) ∨
      (stripSourceExtension last ≠ indexStem ∧ names.length ≤ init.length) := by
  have before := length_walkOf_le init
  have lengths := congrArg List.length along
  rw [List.length_map] at lengths
  have onward : walkOf (init ++ [last]) =
      ([last].filterMap ofPiece?).foldl normalizeComponents.step (walkOf init) := by
    rw [walkOf, walkOf, normalizeComponents, List.filterMap_append, List.foldl_append]
    rfl
  -- A name makes the way longer by one, nothing and a dot leave it, and two dots make it shorter.
  rcases ofPiece?_cases last with ⟨text, spelled, read⟩ | ⟨idle, read⟩ | ⟨rfl, -⟩
  · rw [onward, List.filterMap_cons_some read] at along
    rcases List.map_eq_append_iff.mp along.symm with ⟨front, final, rfl, fronts, finals⟩
    obtain rfl : final = [text] := by
      cases final with
      | nil => simp at finals
      | cons first rest => simpa using finals
    exact .inl ⟨front, text, spelled, rfl, fronts.symm⟩
  · rw [onward, List.filterMap_cons_none read] at lengths
    refine .inr ⟨?_, lengths ▸ before⟩
    rcases idle with rfl | rfl <;> decide
  · refine .inr ⟨by decide, ?_⟩
    change walkOf (init ++ [['.', '.']]) = normalizeComponents.step (walkOf init) .parent at onward
    rw [normalizeComponents.step] at onward
    split at onward
    · rw [onward, List.length_dropLast] at lengths
      omega
    · have inside : Component.parent ∈ names.map Component.name := along ▸ onward ▸ by simp
      simp at inside

/-! ## The segments of a key of the package's own -/

/-- The modules that stand for a package wherever its entry lies. -/
def IsTopIndex (key : List Char) : Prop :=
  key = indexStem ∨ key = indexStem ++ '/' :: indexStem

theorem mem_ownKeys_of_isTopIndex {package : Package} {key : List Char} (top : IsTopIndex key) :
    key ∈ package.ownKeys := by
  rcases top with rfl | rfl <;> simp [ownKeys]

/-- The segments of a module that is the text of an entry without its extension, or the directory of
which it is the index. -/
theorem splitOn_keyOf {text last : List Char} {init : List (List Char)} (plain : '/' ∉ last)
    (spelled : splitOn '/' text = init ++ [last]) :
    splitOn '/' (keyOf text) = init ++ [stripSourceExtension last] ∨
      splitOn '/' (keyOf text) = init ∧ stripSourceExtension last = indexStem := by
  have stripped : splitOn '/' (stripSourceExtension text) = init ++ [stripSourceExtension last] := by
    have initPlain : ∀ piece ∈ init, '/' ∉ piece := fun piece member =>
      not_mem_of_mem_splitOn (spelled ▸ List.mem_append_left _ member)
    have stemPlain : '/' ∉ stripSourceExtension last := by
      rcases exists_stripSourceExtension_append last with ⟨ending, shape, -⟩
      exact fun inside => plain (shape ▸ List.mem_append_left _ inside)
    rw [← joinWith_splitOn text, spelled, stripSourceExtension_joinWith _ plain,
      splitOn_joinWith (by simp)]
    exact List.forall_mem_append.mpr ⟨initPlain, List.forall_mem_singleton.mpr stemPlain⟩
  rcases collapseIndex_cases (stripSourceExtension text) with whole | ⟨-, shape⟩
  · exact .inl (by rw [keyOf, whole, stripped])
  · rw [shape, splitOn_append_separator, splitOn_of_not_mem (by decide : '/' ∉ indexStem)] at stripped
    rcases List.append_inj' stripped rfl with ⟨front, final⟩
    exact .inr ⟨front, (List.singleton_inj.mp final).symm⟩

/-- Segments are those of a text whose last segment is given: without its extension, without the segment if
that is an index, or with an index in its place. -/
def BeginsAs (init : List (List Char)) (last : List Char) (pieces : List (List Char)) : Prop :=
  (pieces = init ∧ stripSourceExtension last = indexStem) ∨
    ∃ more ∈ [[stripSourceExtension last], [indexStem], [indexStem, indexStem]], pieces = init ++ more

/-- A key of the package's own lies at the top, or it begins as the entry does. -/
theorem exists_splitOn_of_mem_ownKeys {package : Package} {text : List Char} {file : List String}
    (isFile : IsFile file) (key : package.entryKey = keyOf text)
    (directory : package.entryDirectory = directoryOf text)
    (own : keyOf (textOf file) ∈ package.ownKeys) :
    IsTopIndex (keyOf (textOf file)) ∨ ∃ init last, splitOn '/' text = init ++ [last] ∧
      BeginsAs init last (splitOn '/' (keyOf (textOf file))) := by
  rcases List.eq_nil_or_concat' (splitOn '/' text) with empty | ⟨init, last, spelled⟩
  · exact absurd empty (splitOn_ne_nil '/' text)
  have plain : '/' ∉ last := not_mem_of_mem_splitOn (spelled ▸ List.mem_append_right _ List.mem_cons_self)
  have below {rest : List Char} (lies : keyOf (textOf file) = package.entryDirectory ++ '/' :: rest) :
      splitOn '/' (keyOf (textOf file)) = init ++ splitOn '/' rest := by
    rw [directory] at lies
    rcases directoryOf_cases text with ⟨-, slashless⟩ | ⟨final, outside, shape⟩
    · rw [slashless] at lies
      exact absurd lies (keyOf_ne_slash_cons isFile _)
    · rw [shape, splitOn_append_separator, splitOn_of_not_mem outside] at spelled
      rw [lies, splitOn_append_separator, (List.append_inj' spelled rfl).1]
  simp only [ownKeys, List.mem_cons, List.not_mem_nil, or_false] at own
  rcases own with entry | top | top | lies | lies
  · rw [entry, key]
    refine .inr ⟨init, last, spelled, ?_⟩
    rcases splitOn_keyOf plain spelled with whole | index
    · exact .inr ⟨_, by simp, whole⟩
    · exact .inl index
  · exact .inl (.inl top)
  · exact .inl (.inr top)
  · exact .inr ⟨init, last, spelled, .inr ⟨[indexStem], by simp, below lies⟩⟩
  · exact .inr ⟨init, last, spelled, .inr ⟨[indexStem, indexStem], by simp, below lies⟩⟩

/-! ## The file of an entry -/

theorem eq_textOf_concat {text last : List Char} {init : List (List Char)} {front : List String}
    {name : String} (spelled : splitOn '/' text = init ++ [last]) (fronts : init = front.map String.toList)
    (final : last = name.toList) : text = textOf (front ++ [name]) := by
  rw [← joinWith_splitOn text, spelled, fronts, final, textOf, List.map_append, List.map_singleton]

section Pieces

variable {init : List (List Char)} {last : List Char} {front : List String} {name : String}
  (along : walkOf (init ++ [last]) = (front ++ [name]).map Component.name)
include along

/-- Segments that are no more than the names on the way of an entry, and that begin as the entry does,
leave nothing on the way to be resolved but what the entry begins with. -/
theorem BeginsAs.cases {pieces : List (List Char)} (begins : BeginsAs init last pieces)
    (most : pieces.length ≤ front.length + 1) :
    last = name.toList ∧
      ((pieces = init ∧ stripSourceExtension last = indexStem ∧ walkOf init = front.map Component.name) ∨
        init.length = front.length ∧ ∃ final ∈ [stripSourceExtension last, indexStem],
          pieces = init ++ [final]) := by
  rcases walkOf_concat along with ⟨before, text, spelled, parts, walked⟩ | ⟨noIndex, short⟩
  · rcases List.append_inj' parts rfl with ⟨rfl, names⟩
    have short := length_walkOf_le init
    rw [walked, List.length_map] at short
    refine ⟨List.singleton_inj.mp names ▸ spelled, ?_⟩
    rcases begins with ⟨whole, index⟩ | ⟨more, shape, whole⟩
    · exact .inl ⟨whole, index, walked⟩
    · -- The pieces before the last one make up the front already, so one more segment is all there can be.
      rw [whole, List.length_append] at most
      simp only [List.mem_cons, List.not_mem_nil, or_false] at shape
      rcases shape with rfl | rfl | rfl <;> simp only [List.length_cons, List.length_nil] at most
      · exact .inr ⟨by omega, _, by simp, whole⟩
      · exact .inr ⟨by omega, _, by simp, whole⟩
      · omega
  · rw [List.length_append, List.length_singleton] at short
    rcases begins with ⟨-, index⟩ | ⟨more, shape, whole⟩
    · exact absurd index noIndex
    · have filled : 0 < more.length := by
        simp only [List.mem_cons, List.not_mem_nil, or_false] at shape
        rcases shape with rfl | rfl | rfl <;> simp
      rw [whole, List.length_append] at most
      omega

/-- A key that begins as the entry does is the key of the way of the entry only where the entry is
spelled as its way is. -/
theorem pieces_of_entry (begins : BeginsAs init last ((keyPieces front name).map String.toList)) :
    keyPieces front name = ["index"] ∨ init = front.map String.toList ∧ last = name.toList := by
  have most : ((keyPieces front name).map String.toList).length ≤ front.length + 1 := by
    rw [List.length_map, keyPieces]
    split <;> simp
  rcases begins.cases along most with ⟨rfl, ⟨whole, index, -⟩ | ⟨lengths, final, -, whole⟩⟩
  · rw [← toList_stemOf, toList_stemOf_eq_index_iff] at index
    by_cases top : front = []
    · left
      rw [keyPieces, if_neg (not_and_of_not_right _ (not_not_intro top)), top, index]
      rfl
    · rw [keyPieces, if_pos ⟨index, top⟩] at whole
      exact .inr ⟨whole.symm, rfl⟩
  · rw [keyPieces] at whole
    split at whole
    · have same := congrArg List.length whole
      rw [List.length_map, List.length_append, List.length_singleton] at same
      omega
    · rw [List.map_append] at whole
      exact .inr ⟨(List.append_inj whole (by rw [List.length_map, lengths])).1.symm, rfl⟩

/-- The same for the key of an index in the directory that the entry names. -/
theorem pieces_of_index (named : ∀ other ∈ front ++ [name], IsEntryName other)
    (begins : BeginsAs init last ((front ++ [name]).map String.toList)) :
    init = front.map String.toList ∧ last = name.toList ∧ stripSourceExtension last = last := by
  rcases begins.cases along (by simp) with ⟨rfl, ⟨rfl, -, walked⟩ | ⟨lengths, final, shape, whole⟩⟩
  · rw [walkOf_names named] at walked
    have same := congrArg List.length walked
    simp at same
  · rw [List.map_append, List.map_singleton] at whole
    rcases List.append_inj whole (by rw [List.length_map, lengths]) with ⟨fronts, finals⟩
    refine ⟨fronts.symm, rfl, ?_⟩
    rw [List.singleton_inj.mp finals]
    simp only [List.mem_cons, List.not_mem_nil, or_false] at shape
    rcases shape with stem | index
    · rw [List.singleton_inj.mp finals] at stem
      exact stem.symm
    · rw [index]
      decide

end Pieces

section Entry

variable {package : Package} {text : List Char} {file names : List String}
  (key : package.entryKey = keyOf text) (directory : package.entryDirectory = directoryOf text)
  (along : walkOf (splitOn '/' text) = names.map Component.name)
  (named : ∀ name ∈ names, IsEntryName name) (isFile : IsFile file)
include key directory along named isFile

/-- The file that is spelled as the entry is, but for the extensions, is the package if the entry is
spelled plainly. -/
theorem mem_ownKeys_iff_of_entry
    (same : stripSourceExtension (textOf file) = stripSourceExtension (textOf names)) :
    keyOf (textOf file) ∈ package.ownKeys ↔
      IsTopIndex (keyOf (textOf file)) ∨ text = textOf names := by
  have fileKey : keyOf (textOf file) = keyOf (textOf names) := congrArg collapseIndex same
  constructor
  · intro own
    rcases List.eq_nil_or_concat' names with rfl | ⟨front, name, rfl⟩
    · exact absurd fileKey (keyOf_ne_nil isFile)
    rw [keyOf_textOf named] at fileKey
    have pieces : splitOn '/' (keyOf (textOf file)) = (keyPieces front name).map String.toList := by
      rw [fileKey, splitOn_textOf (keyPieces_ne_nil front name)]
      exact fun piece member => not_mem_keyPieces named _ (List.mem_map_of_mem member)
    rcases exists_splitOn_of_mem_ownKeys isFile key directory own with top | ⟨init, last, spelled, begins⟩
    · exact .inl top
    · rw [spelled] at along
      rw [pieces] at begins
      rcases pieces_of_entry along begins with index | ⟨fronts, final⟩
      · exact .inl (.inl (by rw [fileKey, index]; rfl))
      · exact .inr (eq_textOf_concat spelled fronts final)
  · rintro (top | rfl)
    · exact mem_ownKeys_of_isTopIndex top
    · rw [fileKey, ← key]
      exact List.mem_cons_self

theorem mem_ownKeys_iff_of_index
    (same : stripSourceExtension (textOf file) = stripSourceExtension (textOf (names ++ ["index"]))) :
    keyOf (textOf file) ∈ package.ownKeys ↔
      IsTopIndex (keyOf (textOf file)) ∨
        text = textOf names ∧ stripSourceExtension (textOf names) = textOf names := by
  have fileKey : keyOf (textOf file) = textOf (keyPieces names "index") := by
    rw [keyOf, same, ← keyOf, keyOf_textOf]
    exact List.forall_mem_append.mpr ⟨named, List.forall_mem_singleton.mpr (by decide)⟩
  rw [keyPieces] at fileKey
  rcases List.eq_nil_or_concat' names with rfl | ⟨front, name, rfl⟩
  · have top : IsTopIndex (keyOf (textOf file)) := .inl (fileKey.trans (by decide))
    exact iff_of_true (mem_ownKeys_of_isTopIndex top) (.inl top)
  rw [if_pos ⟨by decide, by simp⟩] at fileKey
  constructor
  · intro own
    have pieces : splitOn '/' (keyOf (textOf file)) = (front ++ [name]).map String.toList := by
      rw [fileKey, splitOn_textOf (by simp)]
      exact fun other member => (named other member).2
    rcases exists_splitOn_of_mem_ownKeys isFile key directory own with top | ⟨init, last, spelled, begins⟩
    · exact .inl top
    · rw [spelled] at along
      rw [pieces] at begins
      rcases pieces_of_index along named begins with ⟨fronts, final, kept⟩
      refine .inr ⟨eq_textOf_concat spelled fronts final, ?_⟩
      rw [textOf, List.map_append, List.map_singleton,
        stripSourceExtension_joinWith _ (named name (by simp)).2, ← final, kept]
  · rintro (top | ⟨rfl, kept⟩)
    · exact mem_ownKeys_of_isTopIndex top
    · rw [keyOf, kept] at key
      rcases collapseIndex_cases (textOf (front ++ [name])) with whole | ⟨-, shape⟩
      · rw [fileKey, ← whole, ← key]
        exact List.mem_cons_self
      · have lies : keyOf (textOf file) = package.entryDirectory ++ '/' :: indexStem := by
          rw [fileKey, directory, shape, directoryOf_append_slash _ (by decide)]
        simp [ownKeys, lies]

end Entry

/-- The file that the entry of a manifest leads to, with any extension or as an index, has the bare name
of the package exactly if the entry is spelled as the way to it, apart from any `./` in front, or if the
file is an index at the top. For an index in the directory that the entry names the entry must not look
like a file. -/
theorem ofManifest?_entryFile {manifest : Manifest} {name : String} {names : List String}
    (named : manifest.name = some name) (nonempty : name ≠ "")
    (along : (Path.mk manifest.entry).GoesAlong names) :
    ∃ package, ofManifest? manifest = some package ∧ package.name = name ∧
      ∀ {file : List String}, IsFile file →
        (stripSourceExtension (textOf file) = stripSourceExtension (textOf names) →
          (package.specifier (textOf file) = name ↔
            IsTopIndex (keyOf (textOf file)) ∨ dropCurrent manifest.entry.toList = textOf names)) ∧
        (stripSourceExtension (textOf file) = stripSourceExtension (textOf (names ++ ["index"])) →
          (package.specifier (textOf file) = name ↔
            IsTopIndex (keyOf (textOf file)) ∨
              dropCurrent manifest.entry.toList = textOf names ∧
                stripSourceExtension (textOf names) = textOf names)) := by
  rcases exists_ofManifest? named nonempty with ⟨package, described, rfl, key, directory⟩
  have walk := walkOf_of_goesAlong along
  refine ⟨package, described, rfl, fun isFile => ⟨fun same => ?_, fun same => ?_⟩⟩
  · rw [specifier_eq_name_iff isFile]
    exact mem_ownKeys_iff_of_entry key directory walk along.isEntryName isFile same
  · rw [specifier_eq_name_iff isFile]
    exact mem_ownKeys_iff_of_index key directory walk along.isEntryName isFile same

/-- A package whose entry is a directory. -/
def withDirectory (entry : String) : Manifest :=
  ⟨some "pkg", none, none, some entry⟩

theorem ofManifest?_entryFile_withDirectory :
    (withDirectory "./lib").name = some "pkg" ∧ "pkg" ≠ "" ∧
      (Path.mk (withDirectory "./lib").entry).GoesAlong ["lib"] ∧
      ∃ package, ofManifest? (withDirectory "./lib") = some package ∧
        package.specifier (textOf ["lib", "index.ts"]) = "pkg" ∧
          package.specifier (textOf ["lib.js"]) = "pkg" := by
  refine ⟨rfl, by decide, by decide, ?_⟩
  rcases @ofManifest?_entryFile (withDirectory "./lib") "pkg" ["lib"] rfl (by decide) (by decide) with
    ⟨package, described, -, entry⟩
  refine ⟨package, described, ?_, ?_⟩
  · exact ((entry ⟨by decide, by decide⟩).2 (by decide +kernel)).mpr (.inr (by decide +kernel))
  · exact ((entry ⟨by decide, by decide⟩).1 (by decide +kernel)).mpr (.inr (by decide +kernel))

/-- A slash behind the entry, and the index of the directory is no longer the package. -/
theorem specifier_entryFile_ne :
    (Path.mk (withDirectory "lib/").entry).GoesAlong ["lib"] ∧
      ∃ package, ofManifest? (withDirectory "lib/") = some package ∧
        stripSourceExtension (textOf ["lib", "index.ts"]) = textOf (["lib"] ++ ["index"]) ∧
          package.specifier (textOf ["lib", "index.ts"]) = "pkg/lib" :=
  ⟨by decide, ⟨"pkg", "lib/".toList, "lib".toList⟩, by decide +kernel⟩

end Package

end AutoImport
