import AutoImport.Import.Specifier
import AutoImport.Proofs.Path.Os

/-!
# Where a specifier leads

Read from the directory of the document, a relative specifier leads back to the module that it was
made for. There is one whenever no `..` has to be walked out of and the names on the way are text.
-/

namespace AutoImport

open Text Component AutoImport.Path
open Workspace (isHiddenName)

/-! ## What two paths share -/

/-- Two rows of components that do not begin with the same one. -/
def Apart (left right : List Component) : Prop :=
  ∀ step ∈ left.head?, step ∉ right.head?

theorem exists_dropShared_eq (lefts rights : List Component) :
    ∃ shared, lefts = shared ++ (dropShared lefts rights).1 ∧
      rights = shared ++ (dropShared lefts rights).2 ∧
      Apart (dropShared lefts rights).1 (dropShared lefts rights).2 := by
  induction lefts generalizing rights with
  | nil => exact ⟨[], by simp [dropShared, Apart]⟩
  | cons left lefts ih =>
      cases rights with
      | nil => exact ⟨[], by simp [dropShared, Apart]⟩
      | cons right rights =>
          rw [dropShared]
          split
          · rename_i same
            rcases ih rights with ⟨shared, leftSplit, rightSplit, apart⟩
            exact ⟨left :: shared, congrArg (left :: ·) leftSplit,
              same ▸ congrArg (left :: ·) rightSplit, apart⟩
          · rename_i other
            exact ⟨[], rfl, rfl, by simpa [Apart, eq_comm] using other⟩

theorem dropShared_append (shared : List Component) {left right : List Component}
    (apart : Apart left right) :
    dropShared (shared ++ left) (shared ++ right) = (left, right) := by
  induction shared with
  | nil =>
      cases left with
      | nil => rfl
      | cons step left =>
          cases right with
          | nil => rfl
          | cons other right =>
              have differ : step ≠ other := fun same => apart step rfl (congrArg some same.symm)
              rw [List.nil_append, List.nil_append, dropShared, if_neg differ]
  | cons step shared ih => rw [List.cons_append, List.cons_append, dropShared, if_pos rfl, ih]

/-- What two rows share and what is left of them is determined by them. -/
theorem exists_apart_iff {lefts rights shared left right : List Component}
    (leftSplit : lefts = shared ++ left) (rightSplit : rights = shared ++ right)
    (apart : Apart left right) (property : List Component → List Component → Prop) :
    (∃ others other another, lefts = others ++ other ∧ rights = others ++ another ∧
      Apart other another ∧ property other another) ↔ property left right := by
  constructor
  · rintro ⟨others, other, another, rfl, rfl, otherApart, holds⟩
    have same := (dropShared_append shared apart).symm
    rw [← leftSplit, ← rightSplit, dropShared_append others otherApart] at same
    obtain ⟨rfl, rfl⟩ := Prod.mk.inj same
    exact holds
  · intro holds
    exact ⟨shared, left, right, leftSplit, rightSplit, apart, holds⟩

/-- Behind what a directory shares with a file that is not above it, steps to the file are left. -/
theorem exists_shared_of_not_prefix {directory front : List Component} {last : Component}
    (outside : ¬front ++ [last] <+: directory) :
    ∃ shared left down, directory = shared ++ left ∧ front = shared ++ down ∧
      Apart left (down ++ [last]) := by
  rcases exists_dropShared_eq directory (front ++ [last]) with ⟨shared, upSplit, downSplit, apart⟩
  generalize (dropShared directory (front ++ [last])).1 = left at upSplit apart
  generalize (dropShared directory (front ++ [last])).2 = rest at downSplit apart
  cases rest using List.reverseRecOn with
  | nil =>
      rw [List.append_nil] at downSplit
      exact absurd ⟨left, downSplit ▸ upSplit.symm⟩ outside
  | append_singleton down final =>
      rw [← List.append_assoc] at downSplit
      obtain ⟨same, ends⟩ := List.append_inj' downSplit rfl
      exact ⟨shared, left, down, upSplit, same, ends ▸ apart⟩

/-! ## The file of a module -/

/-- Where a specifier of a source file leads: to its path without the extension, or to its directory
when what is left of the file name is `index`. -/
def Path.moduleTarget (path : Path) : Path :=
  let bare : Path := ⟨String.ofList (stripSourceExtension path.spelling.toList)⟩
  if bare.fileName? = some "index" then bare.directory else bare

/-- A file name without the source extension. -/
def stemOf (fileName : String) : String :=
  String.ofList (stripSourceExtension fileName.toList)

theorem toList_stemOf (fileName : String) :
    (stemOf fileName).toList = stripSourceExtension fileName.toList :=
  String.toList_ofList

theorem toList_stemOf_eq_index_iff (fileName : String) :
    (stemOf fileName).toList = indexStem ↔ stemOf fileName = "index" := by
  rw [← String.toList_inj]
  rfl

theorem stemOf_lettersOf (fileName : String) :
    stemOf (lettersOf fileName) = lettersOf (stemOf fileName) := by
  rw [← String.toList_inj, toList_stemOf, toList_lettersOf, stripSourceExtension_inLetters,
    toList_lettersOf, toList_stemOf]

theorem stemOf_lettersOf_eq_index_iff (fileName : String) :
    stemOf (lettersOf fileName) = "index" ↔ stemOf fileName = "index" := by
  rw [stemOf_lettersOf, lettersOf_eq_iff (by decide)]

theorem not_mem_stemOf {fileName : String} (named : IsEntryName fileName) :
    '/' ∉ (stemOf fileName).toList := by
  rcases exists_stripSourceExtension_append fileName.toList with ⟨ending, shape, -⟩
  rw [toList_stemOf]
  exact fun inside => named.2 (shape ▸ List.mem_append_left _ inside)

theorem not_hidden_head? {fileName : String} (visible : isHiddenName fileName = false) :
    fileName.toList.head? ≠ some '.' := by
  intro dotted
  rcases List.head?_eq_some_iff.mp dotted with ⟨rest, spelled⟩
  have hidden : isHiddenName fileName = true := startsWith_iff.mpr ⟨rest, spelled⟩
  simp [hidden] at visible

section FileName

variable {fileName : String} (named : IsEntryName fileName) (visible : isHiddenName fileName = false)
include named visible

theorem head?_stemOf : ∃ c, (stemOf fileName).toList.head? = some c ∧ c ≠ '.' := by
  rcases exists_stripSourceExtension_append fileName.toList with ⟨ending, shape, filled⟩
  rw [stemOf, String.toList_ofList]
  cases stem : stripSourceExtension fileName.toList with
  | nil => exact absurd (filled stem) named.ne_nil
  | cons c rest =>
      refine ⟨c, rfl, ?_⟩
      rintro rfl
      exact not_hidden_head? visible (by rw [shape, stem]; rfl)

theorem isEntryName_stemOf : IsEntryName (stemOf fileName) := by
  rcases head?_stemOf named visible with ⟨c, begins, notDot⟩
  refine ⟨?_, not_mem_stemOf named⟩
  rw [ofPiece?, if_neg, if_neg, String.ofList_toList]
  · intro dots
    simp [eq_of_beq dots, notDot.symm] at begins
  · simp only [Bool.or_eq_true, beq_iff_eq, not_or]
    constructor <;> intro idle <;> simp [idle, notDot.symm] at begins

theorem hasFileStem_of_visible : hasFileStem fileName = true := by
  have dotted : ∀ extension ∈ sourceExtensions, extension.toList.head? = some '.' := by decide
  have filled : fileName.isEmpty = false := by
    have inked := named.ne_nil
    simpa using inked
  have other : fileName ∉ sourceExtensions :=
    fun member => not_hidden_head? visible (dotted fileName member)
  simp [hasFileStem, filled, other]

theorem moduleTarget_route {absolute : Bool} {steps : List Component}
    (all : ∀ step ∈ steps, step.IsStep) :
    (route absolute (steps ++ [Component.name fileName])).moduleTarget =
      if stemOf fileName = "index" then route absolute steps
      else route absolute (steps ++ [Component.name (stemOf fileName)]) := by
  have stemNamed := isEntryName_stemOf named visible
  have withName {name : String} (isName : IsEntryName name) :
      ∀ step ∈ steps ++ [Component.name name], step.IsStep := by
    intro step member
    rcases List.mem_append.mp member with outer | inner
    · exact all step outer
    · exact List.mem_singleton.mp inner ▸ isName
  rcases exists_lead_route absolute all with ⟨front, lead, spelled⟩
  have bare : Path.mk (String.ofList (stripSourceExtension
      (route absolute (steps ++ [Component.name fileName])).spelling.toList)) =
      route absolute (steps ++ [Component.name (stemOf fileName)]) := by
    apply ext_toList
    rw [String.toList_ofList, spelled named, spelled stemNamed,
      stripSourceExtension_append lead named.2, stemOf, String.toList_ofList]
  rw [moduleTarget, bare]
  simp only [fileName?_route _ (withName stemNamed) rfl, directory_route _ (withName stemNamed),
    Option.some.injEq]

end FileName

/-! ## The pieces of a specifier -/

/-- A specifier that is read from the directory of the document. -/
def IsRelativeSpecifier (specifier : List Char) : Prop :=
  specifier = ['.'] ∨ specifier = ['.', '.'] ∨ startsWith ['.', '/'] specifier = true ∨
    startsWith ['.', '.', '/'] specifier = true

instance (specifier : List Char) : Decidable (IsRelativeSpecifier specifier) :=
  inferInstanceAs (Decidable (_ ∨ _))

/-- The segments of a specifier up to the file: the way there, behind a `.` unless it begins with
`..`. -/
def leadPieces (way : List Component) : List (List Char) :=
  (if way.head? = some .parent then [] else [['.']]) ++ piecesOf way

theorem exists_leadPieces_eq (way : List Component) :
    ∃ first rest, leadPieces way = first :: rest ∧ (first = ['.'] ∨ first = ['.', '.']) := by
  unfold leadPieces
  split
  · rename_i begins
    rcases List.head?_eq_some_iff.mp begins with ⟨rest, rfl⟩
    exact ⟨_, _, rfl, .inr rfl⟩
  · exact ⟨_, _, rfl, .inl rfl⟩

theorem isRelativeSpecifier_joinWith (way : List Component) (pieces : List (List Char)) :
    IsRelativeSpecifier (joinWith ['/'] (leadPieces way ++ pieces)) := by
  rcases exists_leadPieces_eq way with ⟨first, rest, lead, dots⟩
  rw [lead, List.cons_append]
  cases rest ++ pieces with
  | nil =>
      rcases dots with rfl | rfl
      · exact .inl rfl
      · exact .inr (.inl rfl)
  | cons next pieces =>
      rcases dots with rfl | rfl
      · exact .inr (.inr (.inl rfl))
      · exact .inr (.inr (.inr rfl))

theorem isAbsolute_of_isRelativeSpecifier {specifier : List Char}
    (relative : IsRelativeSpecifier specifier) :
    Path.isAbsolute ⟨String.ofList specifier⟩ = false := by
  rw [isAbsolute, String.toList_ofList]
  rcases relative with same | same | begins | begins
  · rw [same]
    rfl
  · rw [same]
    rfl
  · rcases startsWith_iff.mp begins with ⟨rest, same⟩
    rw [same]
    rfl
  · rcases startsWith_iff.mp begins with ⟨rest, same⟩
    rw [same]
    rfl

section Way

variable {way : List Component} (all : ∀ step ∈ way, step.IsStep)
include all

theorem not_mem_leadPieces : ∀ piece ∈ leadPieces way, '/' ∉ piece := by
  intro piece member
  rcases List.mem_append.mp member with dot | inner
  · split at dot
    · simp at dot
    · rw [List.mem_singleton.mp dot]
      decide
  · exact not_mem_piecesOf all piece inner

theorem filterMap_ofPiece?_leadPieces : (leadPieces way).filterMap ofPiece? = way := by
  rw [leadPieces, List.filterMap_append, filterMap_ofPiece?_piecesOf all]
  split <;> rfl

/-- Only a way that begins with `..` is spelled like one. -/
theorem startsWith_dots_iff {segment : List Char} (plain : '/' ∉ segment) :
    startsWith ['.', '.', '/'] (joinWith ['/'] (piecesOf way ++ [segment])) = true ↔
      way.head? = some .parent := by
  cases way with
  | nil =>
      have other : startsWith ['.', '.', '/'] segment ≠ true := by
        intro begins
        rcases startsWith_iff.mp begins with ⟨rest, rfl⟩
        simp at plain
      simpa [piecesOf, joinWith] using other
  | cons step way =>
      have isStep := all step List.mem_cons_self
      have one : [step.spelling.toList] ≠ [] := by simp
      have shape : joinWith ['/'] (piecesOf (step :: way) ++ [segment]) =
          step.spelling.toList ++ '/' :: joinWith ['/'] (piecesOf way ++ [segment]) :=
        joinWith_append one (by simp)
      rw [shape, startsWith_iff, List.head?_cons, Option.some.injEq]
      constructor
      · rintro ⟨rest, same⟩
        have pieces := congrArg (splitOn '/') same
        rw [splitOn_append_separator, splitOn_of_not_mem isStep.not_mem_spelling] at pieces
        have dots : step.spelling.toList = ['.', '.'] := (List.cons.inj pieces).1
        have read := isStep.ofPiece?_spelling
        rw [dots] at read
        exact (Option.some.inj read).symm
      · rintro rfl
        exact ⟨_, rfl⟩

theorem specifier_eq {segment : List Char} (plain : '/' ∉ segment) :
    (if startsWith ['.', '.', '/'] (joinWith ['/'] (piecesOf way ++ [segment])) then
        joinWith ['/'] (piecesOf way ++ [segment])
      else '.' :: '/' :: joinWith ['/'] (piecesOf way ++ [segment])) =
      joinWith ['/'] (leadPieces way ++ [segment]) := by
  rw [leadPieces]
  by_cases up : way.head? = some .parent
  · rw [if_pos ((startsWith_dots_iff all plain).mpr up), if_pos up]
    rfl
  · rw [if_neg fun begins => up ((startsWith_dots_iff all plain).mp begins), if_neg up,
      List.append_assoc]
    have one : [['.']] ≠ [] := by simp
    exact (joinWith_append one (by simp)).symm

end Way

theorem mapM_stepDown? {way : List Component} (all : ∀ step ∈ way, step.IsStep) :
    (way.map byLetters).mapM stepDown? = some (piecesOf way) := by
  induction way with
  | nil => rfl
  | cons step way ih =>
      rcases List.forall_mem_cons.mp all with ⟨isStep, later⟩
      have down : stepDown? step.byLetters = some step.spelling.toList := by
        cases step with
        | root => exact isStep.elim
        | current => exact isStep.elim
        | parent => rfl
        | name text =>
            rw [Component.byLetters, stepDown?, OsPath.readName?_lettersOf]
            rfl
      rw [List.map_cons, List.mapM_cons, ih later, down]
      rfl

theorem readName?_ne_none_of_mapM {steps : List Component} {segments : List (List Char)}
    (read : steps.mapM stepDown? = some segments) :
    ∀ name, .name name ∈ steps → OsPath.readName? name ≠ none := by
  induction steps generalizing segments with
  | nil => simp
  | cons step steps ih =>
      simp only [List.mapM_cons, Option.bind_eq_bind, Option.bind_eq_some_iff] at read
      rcases read with ⟨segment, own, segments, later, -⟩
      intro name member
      rcases List.mem_cons.mp member with rfl | inner
      · rintro lost
        simp [stepDown?, lost] at own
      · exact ih later name inner

/-! ## The specifier of a module -/

/-- The segments of a specifier of a source file. -/
def specifierPieces (way : List Component) (fileName : String) : List (List Char) :=
  leadPieces way ++ if stemOf fileName = "index" then [] else [(stemOf fileName).toList]

theorem isStep_of_mem_way (left : List Component) {down : List Component}
    (all : ∀ step ∈ down, step.IsStep) :
    ∀ step ∈ left.map (fun _ => Component.parent) ++ down, step.IsStep := by
  intro step member
  rcases List.mem_append.mp member with up | inner
  · rcases List.mem_map.mp up with ⟨_, -, rfl⟩
    trivial
  · exact all step inner

theorem splitOn_specifierPieces {way : List Component} {fileName : String}
    (all : ∀ step ∈ way, step.IsStep) (stemNamed : IsEntryName (stemOf fileName)) :
    (splitOn '/' (joinWith ['/'] (specifierPieces way fileName))).filterMap ofPiece? =
      way ++ if stemOf fileName = "index" then [] else [.name (stemOf fileName)] := by
  rcases exists_leadPieces_eq way with ⟨first, rest, lead, -⟩
  have plain : ∀ piece ∈ specifierPieces way fileName, '/' ∉ piece := by
    intro piece member
    rcases List.mem_append.mp member with outer | last
    · exact not_mem_leadPieces all piece outer
    · split at last
      · simp at last
      · exact List.mem_singleton.mp last ▸ stemNamed.2
  rw [splitOn_joinWith (by simp [specifierPieces, lead]) plain, specifierPieces, List.filterMap_append,
    filterMap_ofPiece?_leadPieces all]
  split
  · rfl
  · rw [List.filterMap_cons_some stemNamed.1]
    rfl

theorem isRelativeSpecifier_specifierPieces (way : List Component) (fileName : String) :
    IsRelativeSpecifier (joinWith ['/'] (specifierPieces way fileName)) :=
  isRelativeSpecifier_joinWith way _

theorem collapseIndex_leadPieces {way : List Component} {segment : List Char} (plain : '/' ∉ segment) :
    collapseIndex (joinWith ['/'] (leadPieces way ++ [segment])) =
      joinWith ['/'] (leadPieces way ++ if segment = indexStem then [] else [segment]) := by
  rcases exists_leadPieces_eq way with ⟨first, rest, lead, dots⟩
  rw [lead]
  apply collapseIndex_joinWith rest _ plain
  rcases dots with rfl | rfl <;> simp

theorem specifierOf_piecesOf {way : List Component} {fileName : String}
    (all : ∀ step ∈ way, step.IsStep) (isName : IsEntryName fileName) :
    specifierOf (piecesOf way ++ [fileName.toList]) =
      String.ofList (joinWith ['/'] (specifierPieces way fileName)) := by
  have stemPlain := not_mem_stemOf isName
  rw [specifierOf, stripSourceExtension_joinWith _ isName.2, ← toList_stemOf,
    specifier_eq all stemPlain, collapseIndex_leadPieces stemPlain, specifierPieces,
    if_congr (toList_stemOf_eq_index_iff fileName) rfl rfl]

theorem map_byLetters_concat (way : List Component) (text : String) :
    (way ++ [Component.name text]).map byLetters =
      way.map byLetters ++ [Component.name (lettersOf text)] :=
  List.map_append

/-- The specifier goes up by what is left of the directory and down by what is left of the module. -/
theorem OsPath.relativeSpecifier?_eq {document modulePath : OsPath} {absolute : Bool}
    {shared left way : List Component} {fileName : String}
    (above : (parentComponents? (normalizeComponents document.byLetters.components)).getD [] =
      anchor absolute ++ (shared ++ left))
    (target : normalizeComponents modulePath.byLetters.components =
      anchor absolute ++
        (shared ++ (way.map Component.byLetters ++ [Component.name (lettersOf fileName)])))
    (all : ∀ step ∈ way ++ [Component.name fileName], step.IsStep)
    (stemmed : hasFileStem fileName = true)
    (apart : Apart left (way.map Component.byLetters ++ [Component.name (lettersOf fileName)]))
    (sameStart : document.byLetters.isAbsolute = modulePath.byLetters.isAbsolute) :
    document.relativeSpecifier? modulePath =
      if left.all isName then
        some (String.ofList (joinWith ['/']
          (specifierPieces (left.map (fun _ => Component.parent) ++ way) fileName)))
      else none := by
  have isName : IsEntryName fileName := all (Component.name fileName) (by simp)
  have wayDown : ∀ step ∈ way, step.IsStep := fun step member => all step (by simp [member])
  have isFile : modulePath.byLetters.normalize.fileName? = some (lettersOf fileName) := by
    rw [fileName?, components_normalize, target, ← List.append_assoc, ← List.append_assoc,
      List.getLast?_concat]
  have rest : dropShared (anchor absolute ++ (shared ++ left))
      (anchor absolute ++
        (shared ++ (way.map Component.byLetters ++ [Component.name (lettersOf fileName)]))) =
        (left, way.map Component.byLetters ++ [Component.name (lettersOf fileName)]) := by
    rw [← List.append_assoc, ← List.append_assoc, dropShared_append _ apart]
  have steps := mapM_stepDown? all
  rw [map_byLetters_concat] at steps
  rw [Path.normalize, target] at isFile
  unfold relativeSpecifier?
  simp only [sameStart, bne_self_eq_false, Bool.false_eq_true, reduceIte, target, isFile,
    Option.bind_eq_bind, Option.bind_some, readName?_lettersOf, stemmed, above, rest, steps,
    Bool.not_true]
  have dots : left.map (fun _ => ['.', '.']) ++ piecesOf (way ++ [Component.name fileName]) =
      piecesOf (left.map (fun _ => Component.parent) ++ way) ++ [fileName.toList] := by
    have up : Component.parent.spelling.toList = ['.', '.'] := rfl
    have last : (Component.name fileName).spelling = fileName := rfl
    simp [piecesOf, up, last]
  rw [dots, specifierOf_piecesOf (isStep_of_mem_way left wayDown) isName]
  cases left.all Component.isName <;> rfl

theorem anchor_map_byLetters (absolute : Bool) : (anchor absolute).map byLetters = anchor absolute := by
  cases absolute <;> rfl

theorem Apart.map_byLetters {left right : List Component} (apart : Apart left right) :
    Apart (left.map byLetters) (right.map byLetters) := by
  intro step member other
  rw [List.head?_map, Option.mem_def, Option.map_eq_some_iff] at member other
  rcases member with ⟨first, begins, rfl⟩
  rcases other with ⟨second, otherBegins, same⟩
  exact apart first begins (byLetters_injective same ▸ otherBegins)

theorem all_isName_map_byLetters (steps : List Component) :
    (steps.map byLetters).all isName = steps.all isName := by
  rw [List.all_map]
  exact congrArg steps.all (funext isName_byLetters)

/-- The specifier between paths that are text. -/
theorem relativeSpecifier?_eq {document modulePath : Path} {absolute : Bool}
    {shared left down : List Component} {fileName : String}
    (above : (parentComponents? (normalizeComponents document.components)).getD [] =
      anchor absolute ++ (shared ++ left))
    (target : normalizeComponents modulePath.components =
      anchor absolute ++ (shared ++ down ++ [Component.name fileName]))
    (all : ∀ step ∈ shared ++ down ++ [Component.name fileName], step.IsStep)
    (stemmed : hasFileStem fileName = true) (apart : Apart left (down ++ [Component.name fileName]))
    (sameStart : document.isAbsolute = modulePath.isAbsolute) :
    relativeSpecifier? document modulePath =
      if left.all isName then
        some (String.ofList (joinWith ['/']
          (specifierPieces (left.map (fun _ => Component.parent) ++ down) fileName)))
      else none := by
  have lettersAbove := parentComponents?_lettersOf document
  rw [above, List.map_append, List.map_append, anchor_map_byLetters] at lettersAbove
  have lettersTarget := normalizeComponents_lettersOf modulePath
  rw [target, List.append_assoc shared, List.map_append, List.map_append, map_byLetters_concat,
    anchor_map_byLetters] at lettersTarget
  have downAll : ∀ step ∈ down ++ [Component.name fileName], step.IsStep := fun step member =>
    all step (List.append_assoc shared .. ▸ List.mem_append_right _ member)
  have starts : (OsPath.ofText document.spelling).byLetters.isAbsolute =
      (OsPath.ofText modulePath.spelling).byLetters.isAbsolute :=
    (isAbsolute_lettersOf _).trans (sameStart.trans (isAbsolute_lettersOf _).symm)
  have found := OsPath.relativeSpecifier?_eq lettersAbove lettersTarget downAll stemmed
    (map_byLetters_concat down fileName ▸ apart.map_byLetters) starts
  rwa [all_isName_map_byLetters, List.map_map] at found

/-- What there is when there is a specifier: both paths start alike, the file name of the module is a text
with more to it than a source extension, and all steps down to it are text. -/
theorem OsPath.exists_of_relativeSpecifier? {document modulePath : OsPath} {specifier : String}
    (found : document.relativeSpecifier? modulePath = some specifier) :
    document.byLetters.isAbsolute = modulePath.byLetters.isAbsolute ∧
      (∃ name fileName, modulePath.byLetters.normalize.fileName? = some name ∧
        readName? name = some fileName ∧ hasFileStem fileName = true) ∧
      ∃ segments, (dropShared
        ((parentComponents? (normalizeComponents document.byLetters.components)).getD [])
        (normalizeComponents modulePath.byLetters.components)).2.mapM stepDown? = some segments := by
  unfold relativeSpecifier? at found
  simp only [Option.bind_eq_bind] at found
  split at found
  · simp at found
  · rename_i sameStart
    rw [Option.bind_eq_some_iff] at found
    rcases found with ⟨fileName, read, found⟩
    rcases Option.bind_eq_some_iff.mp read with ⟨name, named, read⟩
    split at found
    · simp at found
    · rename_i stemmed
      split at found
      · simp at found
      · rcases Option.bind_eq_some_iff.mp found with ⟨segments, steps, -⟩
        exact ⟨by simpa using sameStart, ⟨name, fileName, named, read, by simpa using stemmed⟩,
          segments, steps⟩

/-- There is no specifier when a name that is left of the module is no text. -/
theorem OsPath.relativeSpecifier?_eq_none {document modulePath : OsPath}
    {shared left rest : List Component}
    (above : (parentComponents? (normalizeComponents document.byLetters.components)).getD [] =
      shared ++ left)
    (target : normalizeComponents modulePath.byLetters.components = shared ++ rest)
    (apart : Apart left rest) {name : String} (member : .name name ∈ rest)
    (unreadable : readName? name = none) : document.relativeSpecifier? modulePath = none := by
  rw [Option.eq_none_iff_forall_ne_some]
  intro specifier found
  rcases exists_of_relativeSpecifier? found with ⟨-, -, segments, read⟩
  rw [above, target, dropShared_append shared apart] at read
  exact readName?_ne_none_of_mapM read name member unreadable

theorem exists_of_relativeSpecifier? {document modulePath : Path} {specifier : String}
    (found : relativeSpecifier? document modulePath = some specifier) :
    document.isAbsolute = modulePath.isAbsolute ∧ ∃ fileName,
      modulePath.normalize.fileName? = some fileName ∧ hasFileStem fileName = true := by
  rcases OsPath.exists_of_relativeSpecifier? found with
    ⟨starts, ⟨name, fileName, named, read, stemmed⟩, -⟩
  rw [OsPath.byLetters_ofText, OsPath.byLetters_ofText, isAbsolute_lettersOf, isAbsolute_lettersOf]
    at starts
  refine ⟨starts, fileName, ?_, stemmed⟩
  rw [OsPath.byLetters_ofText, fileName?_normalize_lettersOf, Option.map_eq_some_iff] at named
  rcases named with ⟨text, named, rfl⟩
  rw [OsPath.readName?_lettersOf] at read
  exact read ▸ named

/-- Among steps only a `..` is no name. -/
theorem all_isName_eq_false_iff {steps : List Component} (isSteps : ∀ step ∈ steps, step.IsStep) :
    steps.all isName = false ↔ .parent ∈ steps ∨ .root ∈ steps := by
  rw [List.all_eq_false]
  constructor
  · rintro ⟨step, member, unnamed⟩
    cases step with
    | parent => exact .inl member
    | name text => simp [isName] at unnamed
    | _ => exact (isSteps _ member).elim
  · rintro (member | member)
    · exact ⟨.parent, member, by simp [isName]⟩
    · exact ⟨.root, member, by simp [isName]⟩

section Ends

variable {document modulePath : OsPath} {absolute : Bool} {shared left way : List Component}
  {documentName fileName : String}
  (source : normalizeComponents document.byLetters.components =
    anchor absolute ++ (shared ++ left ++ [Component.name documentName]))
  (target : normalizeComponents modulePath.byLetters.components =
    anchor absolute ++
      (shared ++ (way.map Component.byLetters ++ [Component.name (lettersOf fileName)])))
  (all : ∀ step ∈ way ++ [Component.name fileName], step.IsStep)
  (visible : isHiddenName fileName = false)
include source target all visible

/-- The specifier, continued from the directory of the document, leads to the module. -/
theorem normalize_join_specifier (directoryAll : ∀ step ∈ shared ++ left, step.IsStep)
    {names : List String} (climbs : left = names.map Component.name) :
    ((route absolute (shared ++ left)).join (OsPath.ofText (String.ofList (joinWith ['/']
        (specifierPieces (left.map (fun _ => Component.parent) ++ way) fileName)))).byLetters).normalize =
      (route absolute
        (shared ++ (way.map byLetters ++ [Component.name (lettersOf fileName)]))).moduleTarget := by
  have isName : IsEntryName fileName := all (Component.name fileName) (by simp)
  have wayAll : ∀ step ∈ way, step.IsStep := fun step member => all step (List.mem_append_left _ member)
  have targetAll : ∀ step ∈ shared ++ way.map byLetters, step.IsStep := by
    intro step member
    rcases List.mem_append.mp member with outer | inner
    · exact directoryAll step (List.mem_append_left _ outer)
    · rcases List.mem_map.mp inner with ⟨original, inside, rfl⟩
      exact isStep_byLetters_iff.mpr (wayAll original inside)
  have relative := isAbsolute_of_isRelativeSpecifier
    (isRelativeSpecifier_specifierPieces (left.map (fun _ => Component.parent) ++ way) fileName)
  have pieces := splitOn_specifierPieces (isStep_of_mem_way left wayAll)
    (isEntryName_stemOf isName visible)
  have start : normalizeComponents (route absolute (shared ++ left)).components =
      anchor absolute ++ shared ++ names.map Component.name := by
    have normal := isNormal_normalizeComponents document.byLetters.components
    rw [source, ← List.append_assoc] at normal
    rw [components_route _ directoryAll, normal.of_append.normalizeComponents_eq, climbs,
      List.append_assoc]
  have normal := isNormal_normalizeComponents modulePath.byLetters.components
  rw [target, ← List.append_assoc, ← List.append_assoc] at normal
  have up : ((left.map fun _ => Component.parent).map byLetters).foldl normalizeComponents.step
      (anchor absolute ++ shared ++ names.map Component.name) = anchor absolute ++ shared := by
    rw [climbs, List.map_map, List.map_map]
    exact foldl_step_parents (anchor absolute ++ shared) names
  rw [Path.normalize, normalizeComponents_join_ofText _ relative, String.toList_ofList, pieces,
    List.map_append, List.map_append, start, List.foldl_append, List.foldl_append, up,
    normal.of_append.foldl_step, ← List.append_assoc shared,
    moduleTarget_route (isEntryName_lettersOf_iff.mpr isName)
      ((isHiddenName_lettersOf fileName).trans visible) targetAll]
  by_cases index : stemOf fileName = "index"
  · rw [if_pos index, if_pos ((stemOf_lettersOf_eq_index_iff fileName).mpr index), List.map_nil,
      List.foldl_nil, List.append_assoc]
    rfl
  · rw [if_neg index, if_neg (mt (stemOf_lettersOf_eq_index_iff fileName).mp index), stemOf_lettersOf]
    simp [normalizeComponents.step, byLetters, route]

/-- Where all that is left of a module is text, only a `..` to be walked out of keeps it from having a
specifier, and the specifier leads to it. -/
theorem OsPath.relativeSpecifier?_leads_of_text (directoryAll : ∀ step ∈ shared ++ left, step.IsStep)
    (apart : Apart left (way.map Component.byLetters ++ [Component.name (lettersOf fileName)]))
    (sameStart : document.byLetters.isAbsolute = modulePath.byLetters.isAbsolute) :
    (∀ specifier, document.relativeSpecifier? modulePath = some specifier →
      IsRelativeSpecifier specifier.toList ∧
        ((route absolute (shared ++ left)).join (ofText specifier).byLetters).normalize =
          (route absolute (shared ++
            (way.map Component.byLetters ++ [Component.name (lettersOf fileName)]))).moduleTarget) ∧
    (document.relativeSpecifier? modulePath = none ↔ .parent ∈ left ∨ .root ∈ left) := by
  have isName : IsEntryName fileName := all (Component.name fileName) (by simp)
  have leftAll : ∀ step ∈ left, step.IsStep := fun step member =>
    directoryAll step (List.mem_append_right _ member)
  have above : (parentComponents? (normalizeComponents document.byLetters.components)).getD [] =
      anchor absolute ++ (shared ++ left) := by
    rw [source, ← List.append_assoc, parentComponents?_concat_name]
    rfl
  rw [relativeSpecifier?_eq above target all (hasFileStem_of_visible isName visible) apart sameStart,
    ← all_isName_eq_false_iff leftAll]
  constructor
  · intro specifier found
    rw [Option.ite_none_right_eq_some, Option.some.injEq] at found
    obtain ⟨climbs, rfl⟩ := found
    rcases exists_names_of_all climbs with ⟨names, namesEq⟩
    have leads := normalize_join_specifier source target all visible directoryAll namesEq
    refine ⟨?_, leads⟩
    rw [String.toList_ofList]
    exact isRelativeSpecifier_specifierPieces _ _
  · cases left.all Component.isName <;> simp

end Ends

/-- A normal form with a file name leads to a file in a directory. -/
theorem exists_steps_of_fileName? {path : Path} {fileName : String}
    (named : path.normalize.fileName? = some fileName) :
    ∃ steps, normalizeComponents path.components =
        anchor path.isAbsolute ++ (steps ++ [Component.name fileName]) ∧
      ∀ step ∈ steps ++ [Component.name fileName], step.IsStep := by
  rcases exists_normalizeComponents_eq path with ⟨steps, same, all⟩
  have spelled : path.normalize.components = anchor path.isAbsolute ++ steps := by
    rw [Path.normalize, same]
    exact components_route _ all
  rw [fileName?, spelled] at named
  induction steps using List.reverseRecOn with
  | nil =>
      rw [List.append_nil] at named
      generalize path.isAbsolute = absolute at named
      cases absolute <;> cases named
  | append_singleton steps last _ =>
      rw [← List.append_assoc, List.getLast?_concat] at named
      cases last with
      | name text =>
          obtain rfl : text = fileName := by simpa using named
          exact ⟨steps, same, all⟩
      | _ => simp at named

/-- What is left of a module is text when its names are. -/
theorem OsPath.exists_way_of_readable {modulePath : OsPath} {front down : List Component}
    {fileName : String}
    (target : normalizeComponents modulePath.byLetters.components =
      front ++ (down ++ [Component.name fileName]))
    (readable : ∀ name, .name name ∈ down ++ [Component.name fileName] → readName? name ≠ none) :
    ∃ (way : List Component) (text : String), down = way.map Component.byLetters ∧
      fileName = lettersOf text := by
  have small : ∀ name, .name name ∈ down ++ [Component.name fileName] →
      ∀ c ∈ name.toList, c.toNat < 256 :=
    fun name member => toNat_lt_of_name_mem (target ▸ List.mem_append_right front member)
  have last : .name fileName ∈ down ++ [Component.name fileName] := by simp
  rcases Option.ne_none_iff_exists'.mp (readable fileName last) with ⟨text, read⟩
  rcases exists_map_byLetters_eq (fun name member => small name (List.mem_append_left _ member))
    (fun name member => readable name (List.mem_append_left _ member)) with ⟨way, same⟩
  exact ⟨way, text, same, eq_lettersOf_of_readName? (small fileName last) read⟩

/-- A relative specifier leads from the directory of the document back to the module. There is one
unless what is left of the directory behind the shared steps has a `..` in it, or what is left of the
module a name that is no text. -/
theorem OsPath.relativeSpecifier?_leads {document modulePath : OsPath} {fileName : String}
    (sameStart : document.byLetters.isAbsolute = modulePath.byLetters.isAbsolute)
    (isFile : document.byLetters.normalize.fileName?.isSome = true)
    (named : modulePath.byLetters.normalize.fileName? = some fileName)
    (visible : isHiddenName fileName = false)
    (outside : document.byLetters.normalize.directory.isWithin modulePath.byLetters.normalize = false) :
    (∀ specifier, document.relativeSpecifier? modulePath = some specifier →
      IsRelativeSpecifier specifier.toList ∧
        (document.byLetters.normalize.directory.join (ofText specifier).byLetters).normalize =
          modulePath.byLetters.normalize.moduleTarget) ∧
    (document.relativeSpecifier? modulePath = none ↔
      ∃ shared left down, document.byLetters.normalize.directory.components = shared ++ left ∧
        modulePath.byLetters.normalize.components = shared ++ down ∧ Apart left down ∧
        (.parent ∈ left ∨ .root ∈ left ∨ ∃ name, .name name ∈ down ∧ readName? name = none)) := by
  rcases Option.isSome_iff_exists.mp isFile with ⟨documentName, documentNamed⟩
  rcases exists_steps_of_fileName? documentNamed with ⟨upSteps, source, sourceAll⟩
  rcases exists_steps_of_fileName? named with ⟨downSteps, target, targetAll⟩
  rw [sameStart] at source
  have upAll : ∀ step ∈ upSteps, step.IsStep := fun step member =>
    sourceAll step (List.mem_append_left _ member)
  have directoryEq : document.byLetters.normalize.directory =
      route modulePath.byLetters.isAbsolute upSteps := by
    rw [Path.normalize, source]
    exact directory_route _ sourceAll
  have moduleEq : modulePath.byLetters.normalize =
      route modulePath.byLetters.isAbsolute (downSteps ++ [Component.name fileName]) := by
    rw [Path.normalize, target]
    rfl
  rw [directoryEq, moduleEq, isWithin_eq_false_iff, components_route _ upAll,
    components_route _ targetAll] at outside
  rw [directoryEq, moduleEq, components_route _ upAll, components_route _ targetAll]
  have notAbove : ¬downSteps ++ [Component.name fileName] <+: upSteps := by
    rintro ⟨rest, rfl⟩
    exact outside ⟨rest, List.append_assoc _ _ _⟩
  rcases exists_shared_of_not_prefix notAbove with ⟨shared, left, down, rfl, rfl, apart⟩
  have above : (parentComponents? (normalizeComponents document.byLetters.components)).getD [] =
      anchor modulePath.byLetters.isAbsolute ++ (shared ++ left) := by
    rw [source, ← List.append_assoc, parentComponents?_concat_name]
    rfl
  rw [List.append_assoc shared] at target
  have upSplit := List.append_assoc (anchor modulePath.byLetters.isAbsolute) shared left
  have downSplit := List.append_assoc (anchor modulePath.byLetters.isAbsolute) shared
    (down ++ [Component.name fileName])
  rw [List.append_assoc shared, exists_apart_iff upSplit.symm downSplit.symm apart fun left down =>
    .parent ∈ left ∨ .root ∈ left ∨ ∃ name, .name name ∈ down ∧ readName? name = none]
  by_cases unreadable : ∃ name, .name name ∈ down ++ [Component.name fileName] ∧ readName? name = none
  · rcases unreadable with ⟨name, member, lost⟩
    have lacking := relativeSpecifier?_eq_none (above.trans upSplit.symm) (target.trans downSplit.symm)
      apart member lost
    exact ⟨fun specifier found => by simp [lacking] at found,
      iff_of_true lacking (.inr (.inr ⟨name, member, lost⟩))⟩
  · rcases exists_way_of_readable ((List.append_assoc ..).trans target.symm).symm
      (fun name member lost => unreadable ⟨name, member, lost⟩) with ⟨way, text, rfl, rfl⟩
    have wayAll : ∀ step ∈ way ++ [Component.name text], step.IsStep := by
      intro step member
      have letters := List.mem_map_of_mem (f := Component.byLetters) member
      rw [map_byLetters_concat] at letters
      exact isStep_byLetters_iff.mp
        (targetAll _ (List.append_assoc .. ▸ List.mem_append_right _ letters))
    have textVisible := (isHiddenName_lettersOf text).symm.trans visible
    have leads := relativeSpecifier?_leads_of_text source target wayAll textVisible upAll apart sameStart
    refine ⟨leads.1, leads.2.trans ?_⟩
    simp only [unreadable, or_false]

/-- A document with a detour reaches the directory of an index file. None is reached from above the place
where both paths start, and no file below a directory whose name is the byte 255. -/
theorem OsPath.relativeSpecifier?_leads_of_detour :
    ((ofText "src/a/../b/x.ts").relativeSpecifier? (ofText "./src/lib/index.ts") = some "../lib" ∧
      ((Path.mk "src/b").join (ofText "../lib").byLetters).normalize = ⟨"src/lib"⟩) ∧
    (ofText "../../x.ts").relativeSpecifier? (ofText "../m.ts") = none ∧
    (ofText "x.ts").relativeSpecifier? ⟨[255, 47, 109, 46, 116, 115]⟩ = none := by
  have found : (ofText "src/a/../b/x.ts").relativeSpecifier? (ofText "./src/lib/index.ts") =
      some "../lib" := by
    decide +kernel
  have leads := (@relativeSpecifier?_leads (ofText "src/a/../b/x.ts") (ofText "./src/lib/index.ts")
    "index.ts" (by decide +kernel) (by decide +kernel) (by decide +kernel) (by decide +kernel)
    (by decide +kernel)).1 "../lib" found
  refine ⟨⟨found, leads.2⟩, ?_, ?_⟩
  · refine (@relativeSpecifier?_leads (ofText "../../x.ts") (ofText "../m.ts") "m.ts"
      (by decide +kernel) (by decide +kernel) (by decide +kernel) (by decide +kernel)
      (by decide +kernel)).2.mpr ?_
    exact ⟨[.parent], [.parent], [.name "m.ts"], by decide +kernel, by decide +kernel,
      by simp [Apart], .inl (by simp)⟩
  · refine (@relativeSpecifier?_leads (ofText "x.ts") ⟨[255, 47, 109, 46, 116, 115]⟩ "m.ts"
      (by decide +kernel) (by decide +kernel) (by decide +kernel) (by decide +kernel)
      (by decide +kernel)).2.mpr ?_
    exact ⟨[], [], [.name "ÿ", .name "m.ts"], by decide +kernel, by decide +kernel,
      by simp [Apart], .inr (.inr ⟨"ÿ", by simp, by decide +kernel⟩)⟩

/-- Nothing has to be walked out of from a document to a file beside it, but a file whose name is no text
has no specifier. And a `..` that a document shares with the normal form of a module, if not with its
spelling, is not walked out of. -/
theorem OsPath.relativeSpecifier?_none_of_bytes :
    ((ofText "src/a.ts").relativeSpecifier? ⟨[115, 114, 99, 47, 255, 46, 116, 115]⟩ = none ∧
      ¬∃ shared left down,
        (ofText "src/a.ts").byLetters.normalize.directory.components = shared ++ left ∧
        (OsPath.mk [115, 114, 99, 47, 255, 46, 116, 115]).byLetters.normalize.components =
          shared ++ down ∧ Apart left down ∧
        (.parent ∈ left ∨ .root ∈ left)) ∧
    (ofText "../a/x.ts").relativeSpecifier? (ofText "./../a/y.ts") = some "./y" ∧
      ∃ shared left down,
        (ofText "../a/x.ts").byLetters.normalize.directory.components = shared ++ left ∧
        (ofText "./../a/y.ts").byLetters.components = shared ++ down ∧ Apart left down ∧
        (.parent ∈ left ∨ .root ∈ left) := by
  have directory : (ofText "src/a.ts").byLetters.normalize.directory.components = [.name "src"] := by
    decide +kernel
  refine ⟨⟨by decide +kernel, ?_⟩, by decide +kernel, [], [.parent, .name "a"],
    [.current, .parent, .name "a", .name "y.ts"], by decide +kernel, by decide +kernel,
    by simp [Apart], .inl (by simp)⟩
  rintro ⟨shared, left, down, split, -, -, out⟩
  have inside : ∀ step ∈ left, step = .name "src" := fun step member =>
    List.mem_singleton.mp (directory ▸ split ▸ List.mem_append_right shared member)
  rcases out with member | member
  · exact absurd (inside _ member) (by simp)
  · exact absurd (inside _ member) (by simp)

end AutoImport
