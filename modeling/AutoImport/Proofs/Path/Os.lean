import AutoImport.Path.Os
import AutoImport.Proofs.Path.Module
import AutoImport.Proofs.Text.Utf8
import AutoImport.Scan.Walk

/-!
# Paths by their bytes

What takes a path apart asks for slashes, dots and source extensions only, and those are characters of
ASCII. So a path that is text is taken apart by its bytes just as by its characters.
-/

namespace AutoImport

open Text Component AutoImport.Path
open Workspace (isHiddenName)

/-! ## Names -/

/-- A name with a letter for each of its bytes. -/
def lettersOf (text : String) : String :=
  String.ofList (inLetters text.toList)

theorem toList_lettersOf (text : String) : (lettersOf text).toList = inLetters text.toList :=
  String.toList_ofList

theorem lettersOf_injective {text other : String} (same : lettersOf text = lettersOf other) :
    text = other :=
  String.toList_inj.mp (inLetters_injective (String.ofList_inj.mp same))

theorem lettersOf_eq_iff {text plain : String} (ascii : IsAscii plain.toList) :
    lettersOf text = plain ↔ text = plain := by
  rw [← String.toList_inj, toList_lettersOf, inLetters_eq_iff ascii, String.toList_inj]

namespace OsPath

theorem readName?_lettersOf (text : String) : readName? (lettersOf text) = some text := by
  rw [readName?, toList_lettersOf, map_byteOf_inLetters, decode?_bytesOf]

theorem eq_lettersOf_of_readName? {name text : String} (small : ∀ c ∈ name.toList, c.toNat < 256)
    (read : readName? name = some text) : name = lettersOf text := by
  have letters : (name.toList.map byteOf).map letterOf = name.toList := by
    rw [List.map_map]
    exact (List.map_congr_left fun c member => letterOf_byteOf (small c member)).trans (List.map_id' _)
  rw [lettersOf, inLetters, ← eq_bytesOf_of_decode? read, letters, String.ofList_toList]

theorem byLetters_ofText (text : String) : (ofText text).byLetters = ⟨lettersOf text⟩ :=
  rfl

end OsPath

/-! ## Components -/

/-- A component with a letter for each byte of its name. -/
def Component.byLetters : Component → Component
  | .name text => .name (lettersOf text)
  | component => component

namespace Component

theorem byLetters_injective : Function.Injective byLetters := by
  intro left right same
  cases left <;> cases right <;> simp_all [byLetters]
  exact lettersOf_injective same

theorem isName_byLetters (component : Component) : component.byLetters.isName = component.isName := by
  cases component <;> rfl

theorem ofPiece?_inLetters (piece : List Char) :
    ofPiece? (inLetters piece) = (ofPiece? piece).map byLetters := by
  have empty : inLetters piece = [] ↔ piece = [] := inLetters_eq_iff (by decide)
  have dot : inLetters piece = ['.'] ↔ piece = ['.'] := inLetters_eq_iff (by decide)
  have dots : inLetters piece = ['.', '.'] ↔ piece = ['.', '.'] := inLetters_eq_iff (by decide)
  simp only [ofPiece?, Bool.or_eq_true, beq_iff_eq, empty, dot, dots]
  split
  · rfl
  · split
    · rfl
    · simp [byLetters, lettersOf]

theorem isEntryName_lettersOf_iff {text : String} :
    IsEntryName (lettersOf text) ↔ IsEntryName text := by
  have piece : ofPiece? text.toList = some (.name text) ↔
      ofPiece? (inLetters text.toList) = some (.name (lettersOf text)) := by
    rw [ofPiece?_inLetters]
    exact (Option.map_injective byLetters_injective).eq_iff.symm
  rw [IsEntryName, IsEntryName, toList_lettersOf, mem_inLetters_iff (by decide), piece]

theorem isStep_byLetters_iff {step : Component} : step.byLetters.IsStep ↔ step.IsStep := by
  cases step with
  | name text => exact isEntryName_lettersOf_iff
  | _ => exact Iff.rfl

end Component

theorem joinWith_map_inLetters (pieces : List (List Char)) :
    joinWith ['/'] (pieces.map inLetters) = inLetters (joinWith ['/'] pieces) := by
  induction pieces with
  | nil => rfl
  | cons piece pieces ih =>
      cases pieces with
      | nil => rfl
      | cons next pieces =>
          have slash : inLetters ['/'] = ['/'] := inLetters_of_ascii (by decide)
          calc
            joinWith ['/'] ((piece :: next :: pieces).map inLetters)
            _ = inLetters piece ++ ['/'] ++ joinWith ['/'] ((next :: pieces).map inLetters) := rfl
            _ = inLetters piece ++ inLetters ['/'] ++ inLetters (joinWith ['/'] (next :: pieces)) := by
              rw [ih, slash]
            _ = inLetters (joinWith ['/'] (piece :: next :: pieces)) := by
              rw [← inLetters_append, ← inLetters_append]
              rfl

theorem splitOn_inLetters (text : List Char) :
    splitOn '/' (inLetters text) = (splitOn '/' text).map inLetters := by
  have plain : ∀ piece ∈ (splitOn '/' text).map inLetters, '/' ∉ piece := by
    intro piece member
    rcases List.mem_map.mp member with ⟨original, inside, rfl⟩
    rw [mem_inLetters_iff (by decide)]
    exact not_mem_of_mem_splitOn inside
  have filled : (splitOn '/' text).map inLetters ≠ [] := by
    simp [splitOn_ne_nil]
  rw [← splitOn_joinWith filled plain, joinWith_map_inLetters, joinWith_splitOn]

theorem filterMap_ofPiece?_inLetters (pieces : List (List Char)) :
    (pieces.map inLetters).filterMap ofPiece? = (pieces.filterMap ofPiece?).map byLetters := by
  rw [List.filterMap_map, List.map_filterMap]
  exact List.filterMap_congr fun piece _ => ofPiece?_inLetters piece

theorem startOf_inLetters (piece : List Char) :
    startOf (inLetters piece) = (startOf piece).map byLetters := by
  by_cases empty : piece = []
  · subst empty
    rfl
  by_cases dot : piece = ['.']
  · subst dot
    rfl
  have letters : inLetters piece ≠ [] ∧ inLetters piece ≠ ['.'] :=
    ⟨mt (inLetters_eq_iff (by decide)).mp empty, mt (inLetters_eq_iff (by decide)).mp dot⟩
  rw [startOf.eq_3 _ letters.1 letters.2, startOf.eq_3 _ empty dot, ofPiece?_inLetters]
  cases ofPiece? piece <;> rfl

namespace Path

theorem components_lettersOf (path : Path) :
    (Path.mk (lettersOf path.spelling)).components = path.components.map byLetters := by
  have empty : inLetters path.spelling.toList = [] ↔ path.spelling.toList = [] :=
    inLetters_eq_iff (by decide)
  rw [components, components, toList_lettersOf]
  cases pieces : splitOn '/' path.spelling.toList with
  | nil => exact absurd pieces (splitOn_ne_nil _ _)
  | cons first rest =>
      have letters := splitOn_inLetters path.spelling.toList
      rw [pieces, List.map_cons] at letters
      rw [componentsOf_eq letters, componentsOf_eq pieces, startOf_inLetters,
        filterMap_ofPiece?_inLetters]
      simp only [empty]
      split <;> simp

theorem isAbsolute_lettersOf (path : Path) :
    (Path.mk (lettersOf path.spelling)).isAbsolute = path.isAbsolute := by
  rw [isAbsolute, toList_lettersOf, startsWith_inLetters (by decide), isAbsolute]

theorem step_byLetters (done : List Component) (component : Component) :
    normalizeComponents.step (done.map byLetters) component.byLetters =
      (normalizeComponents.step done component).map byLetters := by
  cases component with
  | parent =>
      simp only [byLetters, normalizeComponents.step, List.getLast?_map]
      cases done.getLast? with
      | none => simp [byLetters]
      | some last => cases last <;> simp [byLetters]
  | _ => simp [byLetters, normalizeComponents.step]

theorem normalizeComponents_byLetters (components : List Component) :
    normalizeComponents (components.map byLetters) = (normalizeComponents components).map byLetters := by
  rw [normalizeComponents, normalizeComponents, List.foldl_map, ← List.map_nil (f := byLetters)]
  exact (List.foldl_hom (List.map byLetters) (fun done component => step_byLetters done component))

theorem parentComponents?_byLetters (components : List Component) :
    parentComponents? (components.map byLetters) =
      (parentComponents? components).map (List.map byLetters) := by
  rw [parentComponents?, parentComponents?, List.getLast?_map]
  cases components.getLast? with
  | none => rfl
  | some last => cases last <;> simp [byLetters]

/-- The normal form of a path with a letter for each byte. -/
theorem normalizeComponents_lettersOf (path : Path) :
    normalizeComponents (Path.mk (lettersOf path.spelling)).components =
      (normalizeComponents path.components).map byLetters := by
  rw [components_lettersOf, normalizeComponents_byLetters]

theorem fileName?_normalize_lettersOf (path : Path) :
    (Path.mk (lettersOf path.spelling)).normalize.fileName? = path.normalize.fileName?.map lettersOf := by
  rw [fileName?, fileName?, components_normalize, components_normalize, normalizeComponents_lettersOf,
    List.getLast?_map]
  cases (normalizeComponents path.components).getLast? with
  | none => rfl
  | some last => cases last <;> rfl

theorem parentComponents?_lettersOf (path : Path) :
    (parentComponents? (normalizeComponents (Path.mk (lettersOf path.spelling)).components)).getD [] =
      ((parentComponents? (normalizeComponents path.components)).getD []).map byLetters := by
  rw [normalizeComponents_lettersOf, parentComponents?_byLetters]
  cases parentComponents? (normalizeComponents path.components) <;> rfl

/-- A path by letters is continued by the pieces of a text, each by letters. -/
theorem normalizeComponents_join_ofText (base : Path) {text : String}
    (relative : (Path.mk text).isAbsolute = false) :
    normalizeComponents (base.join (OsPath.ofText text).byLetters).components =
      (((splitOn '/' text.toList).filterMap ofPiece?).map byLetters).foldl normalizeComponents.step
        (normalizeComponents base.components) := by
  have lettersRelative : (OsPath.ofText text).byLetters.isAbsolute = false :=
    (isAbsolute_lettersOf ⟨text⟩).trans relative
  rw [normalizeComponents_join _ lettersRelative, OsPath.byLetters_ofText, toList_lettersOf,
    splitOn_inLetters, filterMap_ofPiece?_inLetters]

end Path

/-! ## Source files -/

theorem isHiddenName_lettersOf (name : String) : isHiddenName (lettersOf name) = isHiddenName name := by
  rw [isHiddenName, toList_lettersOf, startsWith_inLetters (by decide), isHiddenName]

theorem stem?_inLetters {extension : String} (ascii : IsAscii extension.toList)
    (path : List Char) :
    stem? (inLetters path) extension = (stem? path extension).map inLetters := by
  have ends (stem : List Char) : endsWith ['/'] (inLetters stem) = endsWith ['/'] stem := by
    rw [endsWith, dropSuffix?_inLetters (by decide), Option.isSome_map, endsWith]
  have empty (stem : List Char) : inLetters stem = [] ↔ stem = [] := inLetters_eq_iff (by decide)
  rw [stem?, stem?, dropSuffix?_inLetters ascii]
  cases dropSuffix? extension.toList path with
  | none => rfl
  | some stem =>
      simp only [Option.map_some, ends]
      split <;> simp_all

theorem stripSourceExtension_inLetters (path : List Char) :
    stripSourceExtension (inLetters path) = inLetters (stripSourceExtension path) := by
  have first (extensions : List String)
      (ascii : ∀ extension ∈ extensions, IsAscii extension.toList) :
      extensions.findSome? (stem? (inLetters path)) =
        (extensions.findSome? (stem? path)).map inLetters := by
    induction extensions with
    | nil => rfl
    | cons extension extensions ih =>
        rcases List.forall_mem_cons.mp ascii with ⟨own, later⟩
        rw [List.findSome?_cons, List.findSome?_cons, stem?_inLetters own, ih later]
        cases stem? path extension <;> rfl
  rw [stripSourceExtension, first sourceExtensions (by decide), stripSourceExtension]
  cases sourceExtensions.findSome? (stem? path) <;> rfl

/-! ## Names that are no text -/

namespace OsPath

theorem toNat_lt_of_mem_byLetters {path : OsPath} {c : Char}
    (member : c ∈ path.byLetters.spelling.toList) : c.toNat < 256 := by
  rw [byLetters, String.toList_ofList] at member
  rcases List.mem_map.mp member with ⟨byte, -, rfl⟩
  rw [toNat_letterOf]
  exact byte.toNat_lt

theorem toNat_lt_of_name_mem {path : OsPath} {name : String}
    (member : .name name ∈ normalizeComponents path.byLetters.components) :
    ∀ c ∈ name.toList, c.toNat < 256 := by
  intro c inside
  have spelled : .name name ∈ path.byLetters.components :=
    (name_mem_of_mem_foldl_step member).resolve_left List.not_mem_nil
  rcases exists_piece_of_mem_components spelled with ⟨piece, pieceMember, read⟩
  rw [← ofPiece?_eq_name read] at inside
  exact toNat_lt_of_mem_byLetters ((isInfix_of_mem_splitOn pieceMember).subset inside)

end OsPath

/-- Components whose names are all text are those of a text. -/
theorem exists_map_byLetters_eq {steps : List Component}
    (small : ∀ name, .name name ∈ steps → ∀ c ∈ name.toList, c.toNat < 256)
    (readable : ∀ name, .name name ∈ steps → OsPath.readName? name ≠ none) :
    ∃ way : List Component, steps = way.map byLetters := by
  induction steps with
  | nil => exact ⟨[], rfl⟩
  | cons step steps ih =>
      rcases ih (fun name member => small name (List.mem_cons_of_mem _ member))
        (fun name member => readable name (List.mem_cons_of_mem _ member)) with ⟨way, rfl⟩
      cases step with
      | name name =>
          rcases Option.ne_none_iff_exists'.mp (readable name List.mem_cons_self) with ⟨text, read⟩
          exact ⟨.name text :: way,
            by rw [OsPath.eq_lettersOf_of_readName? (small name List.mem_cons_self) read]; rfl⟩
      | root => exact ⟨.root :: way, rfl⟩
      | current => exact ⟨.current :: way, rfl⟩
      | parent => exact ⟨.parent :: way, rfl⟩

end AutoImport
