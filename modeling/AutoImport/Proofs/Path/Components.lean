import AutoImport.Files.Tree
import AutoImport.Proofs.Text.Search

/-!
# The components of composed paths

A path that is put together from names has these names as its components, and a path that continues
another one has the components of both. This is what lets a file be spoken of by the names on the way
to it, however its path is spelled.
-/

namespace AutoImport

open Text

namespace Component

/-- Whether a text can be the name of an entry of a directory. -/
def IsEntryName (text : String) : Prop :=
  ofPiece? text.toList = some (.name text) ∧ '/' ∉ text.toList

instance (text : String) : Decidable (IsEntryName text) :=
  inferInstanceAs (Decidable (_ ∧ _))

theorem ofPiece?_eq_name {piece : List Char} {text : String}
    (read : ofPiece? piece = some (.name text)) : piece = text.toList := by
  unfold ofPiece? at read
  split at read
  · simp at read
  · split at read
    · simp at read
    · simp only [Option.some.injEq, Component.name.injEq] at read
      rw [← read, String.toList_ofList]

theorem IsEntryName.ne_nil {text : String} (named : IsEntryName text) : text.toList ≠ [] := by
  intro empty
  have read := named.1
  simp [empty, ofPiece?] at read

theorem IsEntryName.not_idle {text : String} (named : IsEntryName text) :
    Path.isIdlePiece text.toList = false := by
  rw [Bool.eq_false_iff]
  intro idle
  have read := named.1
  rw [ofPiece?, show (text.toList == [] || text.toList == ['.']) = true from idle] at read
  simp at read

/-- A component that can be spelled between slashes: `..`, or the name of an entry. -/
def IsStep : Component → Prop
  | .parent => True
  | .name text => IsEntryName text
  | _ => False

section Step

variable {step : Component} (isStep : step.IsStep)
include isStep

theorem IsStep.ofPiece?_spelling : ofPiece? step.spelling.toList = some step := by
  cases step with
  | parent => rfl
  | name text => exact isStep.1
  | _ => exact isStep.elim

theorem IsStep.not_mem_spelling : '/' ∉ step.spelling.toList := by
  cases step with
  | parent => decide
  | name text => exact isStep.2
  | _ => exact isStep.elim

theorem IsStep.not_idle : Path.isIdlePiece step.spelling.toList = false := by
  cases step with
  | parent => rfl
  | name text => exact IsEntryName.not_idle isStep
  | _ => exact isStep.elim

end Step

theorem isStep_of_mem_names {names : List String} (named : ∀ name ∈ names, IsEntryName name) :
    ∀ step ∈ names.map Component.name, step.IsStep := by
  intro step member
  rcases List.mem_map.mp member with ⟨name, inside, rfl⟩
  exact named name inside

end Component

namespace Path

open Component

/-! ## Pieces -/

theorem splitOn_joinWith {pieces : List (List Char)} (nonempty : pieces ≠ [])
    (plain : ∀ piece ∈ pieces, '/' ∉ piece) :
    splitOn '/' (joinWith ['/'] pieces) = pieces := by
  induction pieces with
  | nil => exact absurd rfl nonempty
  | cons piece pieces ih =>
      have outside := plain piece List.mem_cons_self
      cases pieces with
      | nil => exact splitOn_of_not_mem outside
      | cons next pieces =>
          have rest := ih (by simp) fun other member => plain other (List.mem_cons_of_mem _ member)
          rw [joinWith, List.append_assoc, List.singleton_append, splitOn_append_separator, rest,
            splitOn_of_not_mem outside]
          · rfl
          · simp

theorem joinWith_splitOn (text : List Char) : joinWith ['/'] (splitOn '/' text) = text := by
  induction text with
  | nil => rfl
  | cons c text ih =>
      rw [splitOn]
      split
      · rename_i slash
        rcases List.exists_cons_of_ne_nil (splitOn_ne_nil '/' text) with ⟨piece, pieces, shape⟩
        rw [shape] at ih ⊢
        rw [joinWith, ih, eq_of_beq slash]
        · rfl
        · simp
      · split
        · rename_i none
          exact absurd none (splitOn_ne_nil '/' text)
        · rename_i piece pieces shape
          rw [shape] at ih
          cases pieces with
          | nil => exact congrArg (c :: ·) ih
          | cons next pieces => exact congrArg (c :: ·) ih

theorem splitOn_slash_cons (text : List Char) :
    splitOn '/' ('/' :: text) = [] :: splitOn '/' text := by
  rfl

theorem not_mem_of_mem_splitOn {separator : Char} {text piece : List Char}
    (member : piece ∈ splitOn separator text) : separator ∉ piece := by
  induction text generalizing piece with
  | nil =>
      rw [splitOn, List.mem_singleton] at member
      simp [member]
  | cons c text ih =>
      rw [splitOn] at member
      split at member
      · rcases List.mem_cons.mp member with rfl | later
        · simp
        · exact ih later
      · rename_i other
        cases pieces : splitOn separator text with
        | nil => exact absurd pieces (splitOn_ne_nil separator text)
        | cons first rest =>
            rw [pieces] at member ih
            rcases List.mem_cons.mp member with rfl | later
            · intro inside
              rcases List.mem_cons.mp inside with rfl | deeper
              · simp at other
              · exact ih List.mem_cons_self deeper
            · exact ih (List.mem_cons_of_mem _ later)

theorem exists_piece_of_mem_components {path : Path} {text : String}
    (member : Component.name text ∈ path.components) :
    ∃ piece ∈ splitOn '/' path.spelling.toList, ofPiece? piece = some (.name text) := by
  unfold components componentsOf at member
  cases pieces : splitOn '/' path.spelling.toList with
  | nil => exact absurd pieces (splitOn_ne_nil _ _)
  | cons first rest =>
      rw [pieces] at member
      rcases List.mem_append.mp member with start | later
      · split at start
        · simp at start
        · simp at start
        · simp at start
        · exact ⟨first, List.mem_cons_self, by simpa using start⟩
      · obtain ⟨piece, inside, read⟩ := List.mem_filterMap.mp later
        exact ⟨piece, List.mem_cons_of_mem _ inside, read⟩

/-- The names among the components of a path can be names of entries. -/
theorem isEntryName_of_mem_components {path : Path} {text : String}
    (member : Component.name text ∈ path.components) : IsEntryName text := by
  rcases exists_piece_of_mem_components member with ⟨piece, inside, read⟩
  have same := ofPiece?_eq_name read
  exact ⟨same ▸ read, same ▸ not_mem_of_mem_splitOn inside⟩

/-! ## The components of a spelling -/

/-- The component that the first piece of a path stands for when others follow it. -/
def startOf : List Char → List Component
  | [] => [.root]
  | ['.'] => [.current]
  | piece => (ofPiece? piece).toList

theorem componentsOf_eq {text first : List Char} {rest : List (List Char)}
    (pieces : splitOn '/' text = first :: rest) :
    componentsOf text = if text = [] then [] else startOf first ++ rest.filterMap ofPiece? := by
  rw [componentsOf, pieces]
  cases text with
  | nil =>
      obtain ⟨rfl, rfl⟩ : [] = first ∧ [] = rest := by simpa [splitOn] using pieces
      rfl
  | cons c text =>
      cases first with
      | cons d first =>
          simp only [reduceCtorEq, reduceIte]
          unfold startOf
          split <;> simp_all
      | nil =>
          cases rest with
          | cons => rfl
          | nil =>
              rw [splitOn] at pieces
              split at pieces
              · simp [splitOn_ne_nil] at pieces
              · split at pieces <;> simp at pieces

/-- What stands behind a slash contributes its pieces, as far as they are components. -/
theorem componentsOf_append_slash (base text : List Char) (nonempty : base ≠ []) :
    componentsOf (base ++ '/' :: text) =
      componentsOf base ++ (splitOn '/' text).filterMap ofPiece? := by
  have both := splitOn_append_separator '/' base text
  cases pieces : splitOn '/' base with
  | nil => exact absurd pieces (splitOn_ne_nil _ _)
  | cons first rest =>
      rw [pieces, List.cons_append] at both
      rw [componentsOf_eq both, componentsOf_eq pieces]
      simp [nonempty]

/-- The root alone is continued like any other directory. -/
theorem componentsOf_slash_cons (text : List Char) :
    componentsOf ('/' :: text) = .root :: (splitOn '/' text).filterMap ofPiece? := by
  rw [componentsOf_eq (splitOn_slash_cons text)]
  rfl

theorem first_ne_nil_of_relative {path : Path} (relative : path.isAbsolute = false)
    {first : List Char} {rest : List (List Char)}
    (pieces : splitOn '/' path.spelling.toList = first :: rest) (nonempty : path.spelling.toList ≠ []) :
    first ≠ [] := by
  rw [isAbsolute] at relative
  rcases List.exists_cons_of_ne_nil nonempty with ⟨c, text, spelled⟩
  rw [spelled] at pieces relative
  have other : c ≠ '/' := by
    rintro rfl
    simp [startsWith, dropPrefix?] at relative
  rintro rfl
  rw [splitOn, if_neg (by simpa using other)] at pieces
  split at pieces <;> simp at pieces

/-- A path that neither starts at the root nor with a `.` consists of its pieces. -/
theorem components_eq_filterMap {path : Path} (relative : path.isAbsolute = false)
    (inner : path.components.head? ≠ some .current) :
    path.components = (splitOn '/' path.spelling.toList).filterMap ofPiece? := by
  rw [components] at inner ⊢
  cases pieces : splitOn '/' path.spelling.toList with
  | nil => exact absurd pieces (splitOn_ne_nil _ _)
  | cons first rest =>
      rw [componentsOf_eq pieces] at inner ⊢
      by_cases empty : path.spelling.toList = []
      · rw [empty] at pieces
        obtain ⟨rfl, rfl⟩ : [] = first ∧ [] = rest := by simpa [splitOn] using pieces
        rw [if_pos empty]
        rfl
      · have filled := first_ne_nil_of_relative relative pieces empty
        rw [if_neg empty] at inner ⊢
        have start : startOf first = (ofPiece? first).toList := by
          unfold startOf
          split
          · exact absurd rfl filled
          · simp [startOf] at inner
          · rfl
        rw [start, List.filterMap_cons]
        cases ofPiece? first <;> rfl

/-! ## Paths put together from components -/

/-- The pieces between the slashes of a path that is put together from components. -/
def piecesOf (steps : List Component) : List (List Char) :=
  steps.map fun step => step.spelling.toList

theorem ofComponents_root_spelling (steps : List Component) :
    (ofComponents (.root :: steps)).spelling.toList = '/' :: joinWith ['/'] (piecesOf steps) := by
  rw [ofComponents, String.toList_ofList]
  rfl

section Steps

variable {steps : List Component} (all : ∀ step ∈ steps, step.IsStep)
include all

theorem not_mem_piecesOf : ∀ piece ∈ piecesOf steps, '/' ∉ piece := by
  intro piece member
  rcases List.mem_map.mp member with ⟨step, inside, rfl⟩
  exact (all step inside).not_mem_spelling

theorem not_idle_piecesOf : ∀ piece ∈ piecesOf steps, isIdlePiece piece = false := by
  intro piece member
  rcases List.mem_map.mp member with ⟨step, inside, rfl⟩
  exact (all step inside).not_idle

theorem filterMap_ofPiece?_piecesOf : (piecesOf steps).filterMap ofPiece? = steps := by
  induction steps with
  | nil => rfl
  | cons step steps ih =>
      have first := (all step List.mem_cons_self).ofPiece?_spelling
      have later := ih fun other member => all other (List.mem_cons_of_mem _ member)
      change (step.spelling.toList :: piecesOf steps).filterMap ofPiece? = _
      rw [List.filterMap_cons, first, later]

theorem ofComponents_spelling :
    (ofComponents steps).spelling.toList = joinWith ['/'] (piecesOf steps) := by
  unfold ofComponents
  split
  · exact (all .root List.mem_cons_self).elim
  · rw [String.toList_ofList]
    rfl

theorem components_ofComponents : (ofComponents steps).components = steps := by
  cases steps with
  | nil => rfl
  | cons step steps =>
      have pieces : splitOn '/' (ofComponents (step :: steps)).spelling.toList =
          step.spelling.toList :: piecesOf steps := by
        rw [ofComponents_spelling all, splitOn_joinWith (by simp [piecesOf]) (not_mem_piecesOf all)]
        rfl
      have first := all step List.mem_cons_self
      have inked : step.spelling.toList ≠ [] ∧ step.spelling.toList ≠ ['.'] := by
        have ink := first.not_idle
        constructor <;> intro idle <;> simp [idle, isIdlePiece] at ink
      have spelled : (ofComponents (step :: steps)).spelling.toList ≠ [] := by
        intro empty
        simp [empty, splitOn, inked.1.symm] at pieces
      have start : startOf step.spelling.toList = [step] := by
        unfold startOf
        split
        · exact absurd ‹_› inked.1
        · exact absurd ‹_› inked.2
        · rw [first.ofPiece?_spelling]
          rfl
      rw [components, componentsOf_eq pieces, if_neg spelled, start,
        filterMap_ofPiece?_piecesOf fun other member => all other (List.mem_cons_of_mem _ member)]
      rfl

theorem components_ofComponents_root :
    (ofComponents (.root :: steps)).components = .root :: steps := by
  rw [components, ofComponents_root_spelling, componentsOf_slash_cons]
  cases steps with
  | nil => rfl
  | cons step steps =>
      rw [splitOn_joinWith (by simp [piecesOf]) (not_mem_piecesOf all), filterMap_ofPiece?_piecesOf all]

end Steps

/-- The path that names make up, seen from the directory in which the first one lies. -/
def ofNames (names : List String) : Path :=
  .ofComponents (names.map Component.name)

theorem piecesOf_names (names : List String) :
    piecesOf (names.map Component.name) = names.map String.toList := by
  rw [piecesOf, List.map_map]
  rfl

theorem ofNames_spelling (names : List String) :
    (ofNames names).spelling.toList = joinWith ['/'] (names.map String.toList) := by
  rw [← piecesOf_names]
  unfold ofNames ofComponents
  split
  · rename_i other
    cases names <;> simp at other
  · rw [String.toList_ofList]
    rfl

theorem pathOf_spelling (location : Location) :
    (FileTree.pathOf location).spelling.toList =
      '/' :: joinWith ['/'] (location.map String.toList) := by
  rw [FileTree.pathOf, ofComponents, String.toList_ofList, List.map_map]
  rfl

theorem plain_names {names : List String} (named : ∀ name ∈ names, IsEntryName name) :
    ∀ piece ∈ names.map String.toList, '/' ∉ piece := by
  rw [← piecesOf_names]
  exact not_mem_piecesOf (isStep_of_mem_names named)

@[simp]
theorem components_ofNames {names : List String} (named : ∀ name ∈ names, IsEntryName name) :
    (ofNames names).components = names.map Component.name :=
  components_ofComponents (isStep_of_mem_names named)

@[simp]
theorem components_pathOf {location : Location} (named : ∀ name ∈ location, IsEntryName name) :
    (FileTree.pathOf location).components = .root :: location.map Component.name :=
  components_ofComponents_root (isStep_of_mem_names named)

/-! ## Paths that continue other paths -/

/-- A path that continues another one adds its pieces, as far as they are components. -/
theorem components_join_eq {base path : Path} (nonempty : base.spelling ≠ "")
    (relative : path.isAbsolute = false) :
    (base.join path).components =
      base.components ++ (splitOn '/' path.spelling.toList).filterMap ofPiece? := by
  have baseSome : base.spelling.toList ≠ [] := by simpa using nonempty
  have isEmpty : base.spelling.isEmpty = false := by simpa using nonempty
  have idle : (splitOn '/' []).filterMap ofPiece? = [] := rfl
  rw [join, relative, isEmpty]
  cases ending : endsWith ['/'] base.spelling.toList with
  | false =>
      simp only [Bool.or_self, Bool.false_eq_true, reduceIte, components, String.toList_append]
      rw [List.append_assoc]
      exact componentsOf_append_slash _ _ baseSome
  | true =>
      simp only [Bool.or_self, Bool.false_eq_true, reduceIte, components, String.toList_append]
      obtain ⟨front, spelled⟩ := endsWith_iff.mp ending
      rw [spelled, List.append_assoc, List.singleton_append]
      by_cases atRoot : front = []
      · subst atRoot
        rw [List.nil_append, List.nil_append, componentsOf_slash_cons, componentsOf_slash_cons, idle]
        rfl
      · rw [componentsOf_append_slash _ _ atRoot, componentsOf_append_slash _ _ atRoot, idle,
          List.append_nil]

/-- A path that continues another one has the components of both. -/
theorem components_join {base path : Path} (nonempty : base.spelling ≠ "")
    (relative : path.isAbsolute = false) (inner : path.components.head? ≠ some .current) :
    (base.join path).components = base.components ++ path.components := by
  rw [components_join_eq nonempty relative, components_eq_filterMap relative inner]

theorem isAbsolute_ofNames {names : List String} (named : ∀ name ∈ names, IsEntryName name) :
    (ofNames names).isAbsolute = false := by
  rw [isAbsolute, ofNames_spelling, Bool.eq_false_iff]
  intro absolute
  obtain ⟨rest, shape⟩ := startsWith_iff.mp absolute
  cases names with
  | nil => simp [joinWith] at shape
  | cons name names =>
      have first := named name List.mem_cons_self
      have begins : ∃ c more, name.toList = c :: more := List.exists_cons_of_ne_nil first.ne_nil
      obtain ⟨c, more, spelled⟩ := begins
      have slash : c = '/' := by
        cases names <;> simp [joinWith, spelled] at shape <;> exact shape.1
      exact first.2 (by simp [spelled, slash])

theorem pathOf_spelling_ne_empty (location : Location) :
    (FileTree.pathOf location).spelling ≠ "" := by
  intro empty
  have spelled := pathOf_spelling location
  simp [empty] at spelled

theorem components_pathOf_join_of_spells {directory names : List String} {file : Path}
    (inDirectory : ∀ name ∈ directory, IsEntryName name) (relative : file.isAbsolute = false)
    (spells : file.components = names.map Component.name) :
    ((FileTree.pathOf directory).join file).components =
      .root :: (directory ++ names).map Component.name := by
  have inner : file.components.head? ≠ some .current := by
    rw [spells]
    cases names <;> simp
  rw [components_join (pathOf_spelling_ne_empty _) relative inner, components_pathOf inDirectory,
    spells, List.map_append, List.cons_append]

/-- The path of a file that is given by its names below a directory. -/
theorem components_pathOf_join {directory names : List String}
    (inDirectory : ∀ name ∈ directory, IsEntryName name)
    (named : ∀ name ∈ names, IsEntryName name) :
    ((FileTree.pathOf directory).join (ofNames names)).components =
      .root :: (directory ++ names).map Component.name :=
  components_pathOf_join_of_spells inDirectory (isAbsolute_ofNames named) (components_ofNames named)

/-! ## Paths seen from a directory -/

theorem dropStart?_eq_some_iff {α : Type} [DecidableEq α] {start list rest : List α} :
    dropStart? start list = some rest ↔ list = start ++ rest := by
  induction start generalizing list with
  | nil => simp [dropStart?, eq_comm]
  | cons first start ih =>
      cases list with
      | nil => simp [dropStart?]
      | cons item list =>
          rw [dropStart?]
          split
          · rename_i same
            simp [ih, same]
          · rename_i other
            simp [Ne.symm other]

theorem isWithin_iff {path directory : Path} :
    path.isWithin directory = true ↔ directory.components <+: path.components := by
  rw [isWithin, Option.isSome_iff_exists]
  constructor
  · rintro ⟨rest, split⟩
    exact ⟨rest, (dropStart?_eq_some_iff.mp split).symm⟩
  · rintro ⟨rest, split⟩
    exact ⟨rest, dropStart?_eq_some_iff.mpr split.symm⟩

theorem isWithin_eq_false_iff {path directory : Path} :
    path.isWithin directory = false ↔ ¬directory.components <+: path.components := by
  rw [← isWithin_iff, Bool.not_eq_true]

theorem dropWhile_idle_of_names {pieces : List (List Char)}
    (ink : ∀ piece ∈ pieces, isIdlePiece piece = false) : pieces.dropWhile isIdlePiece = pieces := by
  cases pieces with
  | nil => rfl
  | cons piece pieces => simp [ink piece List.mem_cons_self]

theorem dropEndWhile_idle_of_names {pieces : List (List Char)}
    (ink : ∀ piece ∈ pieces, isIdlePiece piece = false) :
    dropEndWhile isIdlePiece pieces = pieces := by
  rw [dropEndWhile, dropWhile_idle_of_names fun piece member => ink piece (List.mem_reverse.mp member),
    List.reverse_reverse]

theorem dropPieces_of_names {pieces : List (List Char)} (count : Nat)
    (ink : ∀ piece ∈ pieces, isIdlePiece piece = false) :
    dropPieces count pieces = pieces.drop count := by
  induction count generalizing pieces with
  | zero => exact dropWhile_idle_of_names ink
  | succ count ih =>
      rw [dropPieces, dropWhile_idle_of_names ink]
      cases pieces with
      | nil => rfl
      | cons piece pieces => exact ih fun other member => ink other (List.mem_cons_of_mem _ member)

/-- What lies below a directory is seen from there by the components between them. -/
theorem below?_ofComponents {directory : Path} {front rest : List Component}
    (spelled : directory.components = .root :: front) (all : ∀ step ∈ front ++ rest, step.IsStep) :
    (ofComponents (.root :: (front ++ rest))).below? directory = some (ofComponents rest) := by
  have restAll : ∀ step ∈ rest, step.IsStep := fun step member => all step (by simp [member])
  have within : (ofComponents (.root :: (front ++ rest))).isWithin directory = true := by
    rw [isWithin, components_ofComponents_root all, spelled, ← List.cons_append,
      dropStart?_eq_some_iff.mpr rfl]
    rfl
  have seen : spellingAfter (front.length + 1)
      (ofComponents (.root :: (front ++ rest))).spelling.toList = joinWith ['/'] (piecesOf rest) := by
    rw [ofComponents_root_spelling, spellingAfter.eq_def, splitOn_slash_cons]
    by_cases empty : front ++ rest = []
    · rcases List.append_eq_nil_iff.mp empty with ⟨rfl, rfl⟩
      rfl
    · rw [splitOn_joinWith (by simpa [piecesOf] using empty) (not_mem_piecesOf all)]
      simp only
      have dropped : (piecesOf (front ++ rest)).drop front.length = piecesOf rest := by
        rw [piecesOf, List.map_append, List.drop_left' (by simp)]
        rfl
      rw [dropPieces_of_names _ (not_idle_piecesOf all), dropped,
        dropEndWhile_idle_of_names (not_idle_piecesOf restAll)]
  rw [below?, if_pos within, spelled]
  simp only [List.length_cons, Option.some.injEq]
  rw [seen, ← ofComponents_spelling restAll, String.ofList_toList]

/-- An entry below a directory is seen from there by the names between them. -/
theorem below?_pathOf {directory names : List String}
    (inDirectory : ∀ name ∈ directory, IsEntryName name)
    (named : ∀ name ∈ names, IsEntryName name) :
    (FileTree.pathOf (directory ++ names)).below? (FileTree.pathOf directory) =
      some (ofNames names) := by
  rw [FileTree.pathOf, List.map_append, below?_ofComponents (components_pathOf inDirectory)]
  · rfl
  · intro step member
    rcases List.mem_append.mp member with outer | inner
    · exact isStep_of_mem_names inDirectory step outer
    · exact isStep_of_mem_names named step inner

/-- An entry elsewhere is not seen from a directory. -/
theorem below?_eq_none {location directory : List String}
    (named : ∀ name ∈ location, IsEntryName name)
    (inDirectory : ∀ name ∈ directory, IsEntryName name) (outside : ¬directory <+: location) :
    (FileTree.pathOf location).below? (FileTree.pathOf directory) = none := by
  have apart : (FileTree.pathOf location).isWithin (FileTree.pathOf directory) = false := by
    rw [isWithin, components_pathOf named, components_pathOf inDirectory, Option.isSome_eq_false_iff,
      Option.isNone_iff_eq_none, Option.eq_none_iff_forall_ne_some]
    intro rest begins
    have split := dropStart?_eq_some_iff.mp begins
    rw [List.cons_append, List.cons.injEq] at split
    obtain ⟨front, back, rfl, left, -⟩ := List.map_eq_append_iff.mp split.2
    have same : front = directory :=
      (List.map_inj_right fun _ _ => Component.name.inj).mp left
    exact outside ⟨back, same ▸ rfl⟩
  rw [below?, if_neg (by simp [apart])]

theorem joinWith_append {pieces others : List (List Char)} (nonempty : pieces ≠ [])
    (more : others ≠ []) :
    joinWith ['/'] (pieces ++ others) = joinWith ['/'] pieces ++ '/' :: joinWith ['/'] others := by
  induction pieces with
  | nil => exact absurd rfl nonempty
  | cons piece pieces ih =>
      cases pieces with
      | nil =>
          obtain ⟨next, others, rfl⟩ := List.exists_cons_of_ne_nil more
          simp [joinWith]
      | cons next pieces =>
          have rest := ih (by simp)
          simp only [List.cons_append] at rest ⊢
          have joined (more : List (List Char)) :
              joinWith ['/'] (piece :: next :: more) =
                piece ++ ['/'] ++ joinWith ['/'] (next :: more) := rfl
          rw [joined, joined, rest, List.append_assoc _ _ ('/' :: _)]

theorem ext_toList {left right : Path} (same : left.spelling.toList = right.spelling.toList) :
    left = right := by
  have spelled := String.toList_inj.mp same
  cases left
  cases right
  exact congrArg Path.mk spelled

/-! ## Routes -/

/-- What stands in front of the steps of an absolute path. -/
def anchor (absolute : Bool) : List Component :=
  if absolute then [.root] else []

/-- The path that leads along some steps. -/
def route (absolute : Bool) (steps : List Component) : Path :=
  ofComponents (anchor absolute ++ steps)

/-- The directory in which a path lies. -/
def directory (path : Path) : Path :=
  path.parent?.getD ⟨""⟩

section Route

variable (absolute : Bool) {steps : List Component} (all : ∀ step ∈ steps, step.IsStep)
include all

@[simp]
theorem components_route : (route absolute steps).components = anchor absolute ++ steps := by
  cases absolute with
  | false => exact components_ofComponents all
  | true => exact components_ofComponents_root all

theorem route_spelling :
    (route absolute steps).spelling.toList =
      (if absolute then ['/'] else []) ++ joinWith ['/'] (piecesOf steps) := by
  cases absolute with
  | false => exact ofComponents_spelling all
  | true => exact ofComponents_root_spelling steps

theorem splitOn_route (nonempty : steps ≠ []) :
    splitOn '/' (route absolute steps).spelling.toList =
      (if absolute then [[]] else []) ++ piecesOf steps := by
  have pieces := splitOn_joinWith (by simpa [piecesOf] using nonempty) (not_mem_piecesOf all)
  rw [route_spelling _ all]
  cases absolute with
  | false => exact pieces
  | true =>
      rw [if_pos rfl, List.singleton_append, splitOn_slash_cons, pieces]
      rfl

end Route

theorem piecesOf_append_step (steps : List Component) (step : Component) :
    piecesOf (steps ++ [step]) = piecesOf steps ++ [step.spelling.toList] := by
  simp [piecesOf]

/-- What stands in front of the last piece of a spelling is the path above it. -/
theorem parent?_of_splitOn {path : Path} {step : Component} (isStep : step.IsStep)
    (ends : path.components.getLast? = some step) {first last : List Char} {rest : List (List Char)}
    (pieces : splitOn '/' path.spelling.toList = first :: (rest ++ [last]))
    (ink : ∀ piece ∈ rest ++ [last], isIdlePiece piece = false) :
    path.parent? =
      some (if first = [] ∧ rest = [] then ⟨"/"⟩ else ⟨String.ofList (joinWith ['/'] (first :: rest))⟩) := by
  have kept : dropEndWhile isIdlePiece (rest ++ [last]) = rest ++ [last] :=
    dropEndWhile_idle_of_names ink
  have front : dropEndWhile isIdlePiece (rest ++ [last]).dropLast = rest := by
    rw [List.dropLast_concat]
    exact dropEndWhile_idle_of_names fun piece member => ink piece (List.mem_append_left _ member)
  have isEmpty : (rest ++ [last]).isEmpty = false := by simp
  rw [parent?, ends]
  cases step with
  | root => exact isStep.elim
  | current => exact isStep.elim
  | _ =>
      simp only [pieces, kept, front, isEmpty]
      cases first with
      | cons => rfl
      | nil => cases rest <;> rfl

section Last

variable (absolute : Bool) {steps : List Component} {step : Component}
  (all : ∀ other ∈ steps ++ [step], other.IsStep)
include all

theorem getLast?_components_route :
    (route absolute (steps ++ [step])).components.getLast? = some step := by
  rw [components_route _ all, ← List.append_assoc, List.getLast?_concat]

theorem fileName?_route {text : String} (last : step = .name text) :
    (route absolute (steps ++ [step])).fileName? = some text := by
  rw [fileName?, getLast?_components_route _ all, last]

theorem parent?_route :
    (route absolute (steps ++ [step])).parent? = some (route absolute steps) := by
  have isStep : step.IsStep := all step (by simp)
  have ends := getLast?_components_route absolute all
  have front : ∀ other ∈ steps, other.IsStep := fun other member =>
    all other (List.mem_append_left _ member)
  have ink := not_idle_piecesOf all
  have pieces := splitOn_route absolute all (by simp)
  rw [piecesOf_append_step] at ink pieces
  cases absolute with
  | true =>
      rw [parent?_of_splitOn isStep ends pieces ink]
      apply congrArg some
      apply ext_toList
      rw [route_spelling _ front]
      cases steps with
      | nil => rfl
      | cons first steps =>
          rw [if_neg (by simp [piecesOf]), String.toList_ofList]
          rfl
  | false =>
      cases steps with
      | nil =>
          rw [parent?, ends]
          cases step with
          | root => exact isStep.elim
          | _ =>
              simp only [pieces]
              rfl
      | cons first steps =>
          have filled : first.spelling.toList ≠ [] := by
            intro empty
            have fixed := ink first.spelling.toList (by simp [piecesOf])
            simp [empty, isIdlePiece] at fixed
          have later : ∀ piece ∈ piecesOf steps ++ [step.spelling.toList], isIdlePiece piece = false :=
            fun piece member => ink piece (List.mem_cons_of_mem _ member)
          rw [parent?_of_splitOn isStep ends pieces later]
          apply congrArg some
          apply ext_toList
          rw [route_spelling _ front, if_neg (by simp [filled]), String.toList_ofList]
          rfl

theorem directory_route : (route absolute (steps ++ [step])).directory = route absolute steps := by
  rw [directory, parent?_route _ all, Option.getD_some]

end Last

theorem isStep_of_mem_names_concat {names : List String} {name : String}
    (inDirectory : ∀ other ∈ names, IsEntryName other) (named : IsEntryName name) :
    ∀ step ∈ names.map Component.name ++ [.name name], step.IsStep := by
  intro step member
  rcases List.mem_append.mp member with outer | inner
  · exact isStep_of_mem_names inDirectory step outer
  · exact List.mem_singleton.mp inner ▸ named

theorem pathOf_concat (directory : List String) (name : String) :
    FileTree.pathOf (directory ++ [name]) =
      route true (directory.map Component.name ++ [.name name]) := by
  rw [FileTree.pathOf, List.map_append]
  rfl

theorem ofNames_concat (names : List String) (name : String) :
    ofNames (names ++ [name]) = route false (names.map Component.name ++ [.name name]) := by
  rw [ofNames, List.map_append]
  rfl

theorem parent?_pathOf {directory : List String} {name : String}
    (inDirectory : ∀ other ∈ directory, IsEntryName other) (named : IsEntryName name) :
    (FileTree.pathOf (directory ++ [name])).parent? = some (FileTree.pathOf directory) := by
  rw [pathOf_concat, parent?_route _ (isStep_of_mem_names_concat inDirectory named)]
  rfl

theorem fileName?_pathOf {directory : List String} {name : String}
    (inDirectory : ∀ other ∈ directory, IsEntryName other) (named : IsEntryName name) :
    (FileTree.pathOf (directory ++ [name])).fileName? = some name := by
  rw [pathOf_concat]
  exact fileName?_route _ (isStep_of_mem_names_concat inDirectory named) rfl

/-- The directory in which the last one of some names lies. -/
theorem parent?_ofNames {names : List String} {name : String}
    (inDirectory : ∀ other ∈ names, IsEntryName other) (named : IsEntryName name) :
    (ofNames (names ++ [name])).parent? = some (ofNames names) := by
  rw [ofNames_concat, parent?_route _ (isStep_of_mem_names_concat inDirectory named)]
  rfl

theorem directory_ofNames {names : List String} {name : String}
    (inDirectory : ∀ other ∈ names, IsEntryName other) (named : IsEntryName name) :
    (ofNames (names ++ [name])).directory = ofNames names := by
  rw [directory, parent?_ofNames inDirectory named, Option.getD_some]

theorem fileName?_ofNames {names : List String} {name : String}
    (inDirectory : ∀ other ∈ names, IsEntryName other) (named : IsEntryName name) :
    (ofNames (names ++ [name])).fileName? = some name := by
  rw [ofNames_concat]
  exact fileName?_route _ (isStep_of_mem_names_concat inDirectory named) rfl

/-! ## Entries by their names -/

theorem ofNames_singleton (name : String) : ofNames [name] = ⟨name⟩ := by
  apply ext_toList
  rw [ofNames_spelling]
  rfl

/-- Only the root of all directories is spelled with a slash at its end. -/
theorem not_endsWith_slash_pathOf {directory : List String} (nonempty : directory ≠ [])
    (inDirectory : ∀ other ∈ directory, IsEntryName other) :
    endsWith ['/'] (FileTree.pathOf directory).spelling.toList = false := by
  rw [← List.dropLast_concat_getLast nonempty] at inDirectory ⊢
  generalize directory.dropLast = front at inDirectory ⊢
  generalize directory.getLast nonempty = last at inDirectory ⊢
  have named := inDirectory last (by simp)
  rw [Bool.eq_false_iff, pathOf_spelling]
  intro ending
  obtain ⟨before, shape⟩ := endsWith_iff.mp ending
  have closing : ∃ more, '/' :: joinWith ['/'] ((front ++ [last]).map String.toList) =
      more ++ last.toList := by
    rw [List.map_append, List.map_singleton]
    by_cases empty : front.map String.toList = []
    · exact ⟨['/'], by simp [empty, joinWith]⟩
    · exact ⟨'/' :: joinWith ['/'] (front.map String.toList) ++ ['/'], by
        simp [joinWith_append empty, joinWith]⟩
  obtain ⟨more, closes⟩ := closing
  have lasts := congrArg List.getLast? (closes.symm.trans shape)
  rw [List.getLast?_append, List.getLast?_concat] at lasts
  cases final : last.toList.getLast? with
  | none => exact named.ne_nil (List.getLast?_eq_none_iff.mp final)
  | some c =>
      obtain rfl : c = '/' := by simpa [final] using lasts
      exact named.2 (List.mem_of_getLast? final)

/-- An entry below a directory by its names. -/
theorem pathOf_join {directory names : List String}
    (inDirectory : ∀ name ∈ directory, IsEntryName name) (named : ∀ name ∈ names, IsEntryName name)
    (nonempty : names ≠ []) :
    (FileTree.pathOf directory).join (ofNames names) = FileTree.pathOf (directory ++ names) := by
  have filled : (FileTree.pathOf directory).spelling.isEmpty = false := by
    simpa using pathOf_spelling_ne_empty directory
  apply ext_toList
  rw [join, isAbsolute_ofNames named, filled, pathOf_spelling (directory ++ names), List.map_append]
  by_cases empty : directory = []
  · subst empty
    have ending : endsWith ['/'] (FileTree.pathOf []).spelling.toList = true := rfl
    rw [if_neg (by simp), if_pos ending, String.toList_append, pathOf_spelling, ofNames_spelling]
    rfl
  · have ending := not_endsWith_slash_pathOf empty inDirectory
    rw [if_neg (by simp), if_neg (by simp [ending]), String.toList_append, String.toList_append,
      pathOf_spelling, ofNames_spelling, joinWith_append (by simpa using empty) (by simpa using nonempty)]
    simp

/-- An entry of a directory by its name. -/
theorem pathOf_join_name {directory : List String} {name : String}
    (inDirectory : ∀ other ∈ directory, IsEntryName other) (named : IsEntryName name) :
    (FileTree.pathOf directory).join ⟨name⟩ = FileTree.pathOf (directory ++ [name]) := by
  rw [← ofNames_singleton]
  exact pathOf_join inDirectory (by simpa using named) (by simp)

end Path

end AutoImport
