import AutoImport.Proofs.Import.Specifier
import AutoImport.Proofs.Scan.Walk

/-!
# Files of one key

The key of a file is its path without the extension, and without `index` at its end. So two files have
one key when they lie in one directory and differ in the extension only, or when one of them is the
index of a directory that has the name of the other. A document that lies in that directory imports
these two by different specifiers.
-/

namespace AutoImport

open Text Component AutoImport.Path

/-! ## The way to a directory -/

/-- The way from a directory to another one. -/
def wayTo (directory target : List Component) : List Component :=
  (dropShared directory target).1.map (fun _ => .parent) ++ (dropShared directory target).2

theorem Apart.of_append {left down more : List Component} (apart : Apart left (down ++ more)) :
    Apart left down := by
  intro step first other
  apply apart step first
  cases down with
  | nil => simp at other
  | cons next down => exact other

theorem dropShared_concat {directory target : List Component} {last : Component}
    (outside : ¬target ++ [last] <+: directory) :
    dropShared directory (target ++ [last]) =
      ((dropShared directory target).1, (dropShared directory target).2 ++ [last]) := by
  rcases exists_shared_of_not_prefix outside with ⟨shared, left, down, rfl, rfl, apart⟩
  have front := dropShared_append shared apart.of_append
  have whole := dropShared_append shared apart
  simp only [List.append_assoc, front, whole]

theorem wayTo_concat {directory target : List Component} {last : Component}
    (outside : ¬target ++ [last] <+: directory) :
    wayTo directory (target ++ [last]) = wayTo directory target ++ [last] := by
  simp [wayTo, dropShared_concat outside]

@[simp]
theorem wayTo_append_self (target rest : List Component) :
    wayTo (target ++ rest) target = rest.map fun _ => .parent := by
  have apart : Apart rest [] := fun step _ => by simp
  have left := dropShared_append target apart
  rw [List.append_nil] at left
  simp [wayTo, left]

theorem isStep_of_mem_wayTo (directory : List Component) {target : List Component}
    (all : ∀ step ∈ target, step.IsStep) : ∀ step ∈ wayTo directory target, step.IsStep := by
  rcases exists_dropShared_eq directory target with ⟨shared, -, split, -⟩
  apply isStep_of_mem_way
  intro step member
  apply all
  rw [split]
  exact List.mem_append_right _ member

/-! ## The segments of specifiers and keys -/

theorem leadPieces_concat_name (way : List Component) (name : String) :
    leadPieces (way ++ [.name name]) = leadPieces way ++ [name.toList] := by
  cases way <;> simp [leadPieces, piecesOf, Component.spelling]

/-- Segments without a slash are told by the text that they are joined to. -/
theorem ofList_joinWith_inj {pieces others : List (List Char)} (nonempty : pieces ≠ [])
    (othersSome : others ≠ []) (plain : ∀ piece ∈ pieces, '/' ∉ piece)
    (othersPlain : ∀ piece ∈ others, '/' ∉ piece) :
    String.ofList (joinWith ['/'] pieces) = String.ofList (joinWith ['/'] others) ↔ pieces = others := by
  constructor
  · intro same
    have split := congrArg (fun text : String => splitOn '/' text.toList) same
    simpa only [String.toList_ofList, splitOn_joinWith nonempty plain,
      splitOn_joinWith othersSome othersPlain] using split
  · exact fun same => same ▸ rfl

theorem specifierPieces_ne_nil (way : List Component) (fileName : String) :
    specifierPieces way fileName ≠ [] := by
  rcases exists_leadPieces_eq way with ⟨first, rest, lead, -⟩
  simp [specifierPieces, lead]

theorem not_mem_specifierPieces (directory : List Component) {front : List String} {fileName : String}
    (named : ∀ name ∈ front ++ [fileName], IsEntryName name) :
    ∀ piece ∈ specifierPieces (wayTo directory (front.map .name)) fileName, '/' ∉ piece := by
  rcases List.forall_mem_append.mp named with ⟨inDirectory, isName⟩
  have way := isStep_of_mem_wayTo directory (isStep_of_mem_names inDirectory)
  intro piece member
  rcases List.mem_append.mp member with outer | last
  · exact not_mem_leadPieces way piece outer
  · split at last
    · simp at last
    · rw [List.mem_singleton.mp last]
      exact not_mem_stemOf (List.forall_mem_singleton.mp isName)

/-- The segments of the key of a source file. -/
def keyPieces (front : List String) (fileName : String) : List String :=
  if stemOf fileName = "index" ∧ front ≠ [] then front else front ++ [stemOf fileName]

theorem keyPieces_ne_nil (front : List String) (fileName : String) : keyPieces front fileName ≠ [] := by
  unfold keyPieces
  split
  · rename_i index
    exact index.2
  · simp

theorem slashed_ofNames {names : List String} (named : ∀ name ∈ names, IsEntryName name) :
    (ofNames names).slashed = joinWith ['/'] (names.map String.toList) := by
  rw [slashed, components_ofNames named]
  apply congrArg (joinWith ['/'])
  induction names with
  | nil => rfl
  | cons name names ih =>
      have later := ih fun other member => named other (List.mem_cons_of_mem _ member)
      simp [segment?, later]

section Key

variable {front : List String} {fileName : String}
  (named : ∀ name ∈ front ++ [fileName], IsEntryName name)
include named

theorem not_mem_keyPieces : ∀ piece ∈ (keyPieces front fileName).map String.toList, '/' ∉ piece := by
  rcases List.forall_mem_append.mp named with ⟨inDirectory, isName⟩
  have isName := List.forall_mem_singleton.mp isName
  unfold keyPieces
  split
  · exact plain_names inDirectory
  · rw [List.map_append, List.map_singleton]
    refine List.forall_mem_append.mpr ⟨plain_names inDirectory, ?_⟩
    exact List.forall_mem_singleton.mpr (not_mem_stemOf isName)

theorem moduleKey_ofNames :
    (ofNames (front ++ [fileName])).moduleKey =
      String.ofList (joinWith ['/'] ((keyPieces front fileName).map String.toList)) := by
  rcases List.forall_mem_append.mp named with ⟨inDirectory, isName⟩
  have isName := List.forall_mem_singleton.mp isName
  have stemPlain := not_mem_stemOf isName
  rw [moduleKey, slashed_ofNames named, List.map_append, List.map_singleton,
    stripSourceExtension_joinWith _ isName.2, ← toList_stemOf]
  apply congrArg String.ofList
  cases front with
  | nil => simp [joinWith, collapseIndex_of_plain stemPlain, keyPieces]
  | cons name rest =>
      have inked := (inDirectory name List.mem_cons_self).ne_nil
      rw [List.map_cons, collapseIndex_joinWith _ inked stemPlain, keyPieces]
      by_cases index : stemOf fileName = "index"
      · rw [if_pos ((toList_stemOf_eq_index_iff fileName).mpr index), if_pos ⟨index, List.cons_ne_nil _ _⟩,
          List.append_nil, List.map_cons]
      · rw [if_neg (mt (toList_stemOf_eq_index_iff fileName).mp index), if_neg (mt And.left index),
          List.map_append, List.map_singleton, List.map_cons]

end Key

section Keys

variable {front others : List String} {fileName other : String}
  (named : ∀ name ∈ front ++ [fileName], IsEntryName name)
include named

theorem moduleKey_eq_iff (othersNamed : ∀ name ∈ others ++ [other], IsEntryName name) :
    (ofNames (front ++ [fileName])).moduleKey = (ofNames (others ++ [other])).moduleKey ↔
      keyPieces front fileName = keyPieces others other := by
  have nonempty (names : List String) (name : String) : (keyPieces names name).map String.toList ≠ [] := by
    simpa using keyPieces_ne_nil names name
  rw [moduleKey_ofNames named, moduleKey_ofNames othersNamed,
    ofList_joinWith_inj (nonempty _ _) (nonempty _ _)
      (not_mem_keyPieces named) (not_mem_keyPieces othersNamed)]
  exact List.map_inj_right fun _ _ => String.toList_inj.mp

theorem moduleKey_eq_index_iff :
    (ofNames (front ++ [fileName])).moduleKey = "index" ↔ keyPieces front fileName = ["index"] := by
  have top : ∀ name ∈ [] ++ ["index"], IsEntryName name := by decide
  have key : (ofNames ([] ++ ["index"])).moduleKey = "index" := by decide
  have pieces : keyPieces [] "index" = ["index"] := by decide
  rw [← pieces, ← moduleKey_eq_iff named top, key]

end Keys

/-! ## Two files of one key -/

/-- A file is the index of a directory that has the name of another file. That one is an index itself
only at the top. -/
structure IndexBeside (front : List String) (fileName : String) (others : List String) (other : String) :
    Prop where
  isIndex : stemOf fileName = "index"
  front_eq : front = others ++ [stemOf other]
  atTop : stemOf other = "index" → others = []

theorem keyPieces_cases {front others : List String} {fileName other : String}
    (same : keyPieces front fileName = keyPieces others other) :
    front = others ∧ stemOf fileName = stemOf other ∨
      IndexBeside front fileName others other ∨ IndexBeside others other front fileName := by
  have top {rest : List String} {name : String} (kept : ¬(stemOf name = "index" ∧ rest ≠ []))
      (index : stemOf name = "index") : rest = [] := by
    by_contra nonempty
    exact kept ⟨index, nonempty⟩
  unfold keyPieces at same
  split at same
  · rename_i index
    split at same
    · rename_i otherIndex
      exact .inl ⟨same, index.1.trans otherIndex.1.symm⟩
    · rename_i kept
      exact .inr (.inl ⟨index.1, same, top kept⟩)
  · rename_i kept
    split at same
    · rename_i otherIndex
      exact .inr (.inr ⟨otherIndex.1, same.symm, top kept⟩)
    · obtain ⟨fronts, stems⟩ := List.append_inj' same rfl
      exact .inl ⟨fronts, by simpa using stems⟩

namespace IndexBeside

variable {front others : List String} {fileName other : String}
  (beside : IndexBeside front fileName others other)
include beside

theorem ne : front ≠ others := by
  intro same
  have lengths := congrArg List.length (same.symm.trans beside.front_eq)
  simp at lengths

theorem keyPieces_eq_index_iff : keyPieces front fileName = ["index"] ↔ stemOf other = "index" := by
  have nonempty : front ≠ [] := by simp [beside.front_eq]
  rw [keyPieces, if_pos ⟨beside.isIndex, nonempty⟩, beside.front_eq]
  constructor
  · intro alone
    have ends := congrArg List.getLast? alone
    simpa using ends
  · intro index
    simp [beside.atTop index, index]

theorem map_name_eq :
    front.map Component.name = others.map Component.name ++ [.name (stemOf other)] := by
  simp [beside.front_eq]

theorem specifierPieces_eq {directory : List Component} (apart : stemOf other ≠ "index")
    (outside : ¬front.map Component.name <+: directory) :
    specifierPieces (wayTo directory (front.map .name)) fileName =
      specifierPieces (wayTo directory (others.map .name)) other := by
  rw [beside.map_name_eq] at outside ⊢
  simp [specifierPieces, wayTo_concat outside, leadPieces_concat_name, beside.isIndex, apart]

/-- The specifiers differ in the number of their steps. -/
theorem specifierPieces_ne {directory : List Component} (named : ∀ name ∈ front, IsEntryName name)
    (either : stemOf other = "index" ∨ front.map Component.name <+: directory) :
    specifierPieces (wayTo directory (front.map .name)) fileName ≠
      specifierPieces (wayTo directory (others.map .name)) other := by
  intro same
  have frontSteps := isStep_of_mem_wayTo directory (isStep_of_mem_names named)
  have otherNamed : ∀ name ∈ others ++ [stemOf other], IsEntryName name := beside.front_eq ▸ named
  rcases List.forall_mem_append.mp otherNamed with ⟨othersNamed, stemNamed⟩
  have otherSteps := isStep_of_mem_wayTo directory (isStep_of_mem_names othersNamed)
  have stemNamed := List.forall_mem_singleton.mp stemNamed
  have isIndex : IsEntryName (stemOf fileName) := beside.isIndex ▸ by decide
  have steps := congrArg (fun pieces => (splitOn '/' (joinWith ['/'] pieces)).filterMap ofPiece?) same
  simp only [splitOn_specifierPieces frontSteps isIndex, splitOn_specifierPieces otherSteps stemNamed,
    if_pos beside.isIndex, List.append_nil] at steps
  have lengths := congrArg List.length steps
  by_cases within : front.map Component.name <+: directory
  · rcases within with ⟨rest, rfl⟩
    rw [wayTo_append_self, beside.map_name_eq, List.append_assoc, wayTo_append_self] at lengths
    simp only [List.length_map, List.length_append, List.length_cons, List.length_nil] at lengths
    omega
  · have index := either.resolve_right within
    rw [beside.map_name_eq] at within lengths
    rw [wayTo_concat within] at lengths
    simp [index] at lengths

theorem specifierPieces_eq_iff {directory : List Component} (named : ∀ name ∈ front, IsEntryName name) :
    specifierPieces (wayTo directory (front.map .name)) fileName =
        specifierPieces (wayTo directory (others.map .name)) other ↔
      keyPieces front fileName ≠ ["index"] ∧
        ¬(front.map Component.name <+: directory ∧ others.map Component.name <+: directory) := by
  have begins (within : front.map Component.name <+: directory) :
      others.map Component.name <+: directory := by
    rw [beside.map_name_eq] at within
    exact (List.prefix_append _ _).trans within
  rw [ne_eq, beside.keyPieces_eq_index_iff]
  constructor
  · intro same
    refine ⟨fun index => ?_, fun within => ?_⟩
    · exact beside.specifierPieces_ne named (.inl index) same
    · exact beside.specifierPieces_ne named (.inr within.1) same
  · rintro ⟨apart, outside⟩
    exact beside.specifierPieces_eq apart fun within => outside ⟨within, begins within⟩

end IndexBeside

theorem specifierPieces_eq_iff {front others : List String} {fileName other : String}
    {directory : List Component} (named : ∀ name ∈ front, IsEntryName name)
    (othersNamed : ∀ name ∈ others, IsEntryName name)
    (same : keyPieces front fileName = keyPieces others other) :
    specifierPieces (wayTo directory (front.map .name)) fileName =
        specifierPieces (wayTo directory (others.map .name)) other ↔
      front = others ∨ keyPieces front fileName ≠ ["index"] ∧
        ¬(front.map Component.name <+: directory ∧ others.map Component.name <+: directory) := by
  rcases keyPieces_cases same with ⟨rfl, stems⟩ | beside | beside
  · simp [specifierPieces, stems]
  · rw [beside.specifierPieces_eq_iff named, or_iff_right beside.ne]
  · rw [eq_comm, beside.specifierPieces_eq_iff othersNamed, or_iff_right beside.ne.symm, same]
    exact and_congr_right fun _ => not_congr and_comm

/-- A key is no relative specifier. -/
theorem specifierPieces_ne_keyPieces (way : List Component) {front : List String} {fileName : String}
    (named : ∀ name ∈ front, IsEntryName name) :
    specifierPieces way fileName ≠ (keyPieces front fileName).map String.toList := by
  rcases exists_leadPieces_eq way with ⟨first, rest, lead, dots⟩
  intro same
  rw [specifierPieces, lead, List.cons_append] at same
  cases front with
  | nil =>
      have lone : keyPieces [] fileName = [stemOf fileName] := by simp [keyPieces]
      rw [lone, List.map_singleton] at same
      obtain ⟨begins, more⟩ := List.cons.inj same
      split at more
      · rename_i index
        rw [index] at begins
        rcases dots with rfl | rfl <;> exact absurd begins (by decide)
      · simp at more
  | cons name front =>
      have shape : ∃ more, keyPieces (name :: front) fileName = name :: more := by
        unfold keyPieces
        split
        · exact ⟨_, rfl⟩
        · exact ⟨_, List.cons_append⟩
      rcases shape with ⟨more, shape⟩
      rw [shape, List.map_cons] at same
      have read := (named name List.mem_cons_self).1
      rw [← (List.cons.inj same).1] at read
      rcases dots with rfl | rfl <;> simp [ofPiece?] at read

/-! ## The specifiers of a document -/

theorem Path.LeadsDown.exists_concat {document path : Path} {specifier : String} (down : path.LeadsDown)
    (found : relativeSpecifier? document path = some specifier) :
    ∃ front fileName, (∀ name ∈ front ++ [fileName], IsEntryName name) ∧
      path = ofNames (front ++ [fileName]) := by
  rcases down with ⟨names, named, rfl⟩
  induction names using List.reverseRecOn with
  | nil =>
      rcases exists_of_relativeSpecifier? found with ⟨-, fileName, nameless, -⟩
      cases nameless
  | append_singleton front fileName _ => exact ⟨front, fileName, named, rfl⟩

section File

variable {front : List String} {fileName : String}
  (named : ∀ name ∈ front ++ [fileName], IsEntryName name)
include named

/-- A file below which a document does not lie is imported by the way to its directory. -/
theorem relativeSpecifier?_ofNames {document : Path} {specifier : String}
    (outside : document.normalize.directory.isWithin (ofNames (front ++ [fileName])) = false)
    (found : relativeSpecifier? document (ofNames (front ++ [fileName])) = some specifier) :
    specifier = String.ofList (joinWith ['/'] (specifierPieces
      (wayTo document.normalize.directory.components (front.map .name)) fileName)) := by
  rcases exists_of_relativeSpecifier? found with ⟨sameStart, other, otherNamed, stemmed⟩
  rcases List.forall_mem_append.mp named with ⟨inDirectory, isName⟩
  have isName := List.forall_mem_singleton.mp isName
  have target : normalizeComponents (ofNames (front ++ [fileName])).components =
      front.map Component.name ++ [.name fileName] := by
    rw [ofNames_goesAlong named, List.map_append, List.map_singleton]
  have whole : ofComponents (front.map Component.name ++ [.name fileName]) =
      ofNames (front ++ [fileName]) := by
    rw [ofNames, List.map_append, List.map_singleton]
  rw [Path.normalize, target, whole, fileName?_ofNames inDirectory isName, Option.some.injEq] at otherNamed
  subst otherNamed
  rw [isWithin_eq_false_iff, components_ofNames named, List.map_append] at outside
  rcases exists_shared_of_not_prefix outside with ⟨shared, left, down, directory, frontSplit, apart⟩
  have all : ∀ step ∈ shared ++ down ++ [.name fileName], step.IsStep := by
    rw [← frontSplit]
    exact isStep_of_mem_names_concat inDirectory isName
  have above := (components_directory_normalize document).symm.trans directory
  rw [frontSplit] at target
  rw [@relativeSpecifier?_eq _ _ false _ _ _ _ above target all stemmed apart sameStart] at found
  have way : wayTo document.normalize.directory.components (front.map .name) =
      left.map (fun _ => .parent) ++ down := by
    rw [wayTo, directory, frontSplit, dropShared_append shared apart.of_append]
  rw [way]
  split at found
  · exact (Option.some.inj found).symm
  · simp at found

end File

/-- Whether a document in a directory imports two files of one key by one specifier: they are one file;
or the document lies below neither, and they are in one directory, or in two that are not both above the
document, their key not being `index`. -/
def Path.AlikeFrom (directory left right : Path) : Prop :=
  left.Same right ∨
    directory.isWithin left = false ∧ directory.isWithin right = false ∧
      (left.directory.Same right.directory ∨
        left.moduleKey ≠ "index" ∧
          ¬(directory.isWithin left.directory = true ∧ directory.isWithin right.directory = true))

instance (directory left right : Path) : Decidable (AlikeFrom directory left right) :=
  inferInstanceAs (Decidable (_ ∨ _))

section Alike

variable {front others : List String} {fileName other : String}
  (named : ∀ name ∈ front ++ [fileName], IsEntryName name)
  (othersNamed : ∀ name ∈ others ++ [other], IsEntryName name)
include named othersNamed

theorem alikeFrom_iff {directory : Path}
    (outside : directory.isWithin (ofNames (front ++ [fileName])) = false)
    (otherOutside : directory.isWithin (ofNames (others ++ [other])) = false) :
    AlikeFrom directory (ofNames (front ++ [fileName])) (ofNames (others ++ [other])) ↔
      front = others ∨ keyPieces front fileName ≠ ["index"] ∧
        ¬(front.map Component.name <+: directory.components ∧
          others.map Component.name <+: directory.components) := by
  rcases List.forall_mem_append.mp named with ⟨inDirectory, isName⟩
  rcases List.forall_mem_append.mp othersNamed with ⟨otherDirectory, otherName⟩
  have parent := directory_ofNames inDirectory (List.forall_mem_singleton.mp isName)
  have otherParent := directory_ofNames otherDirectory (List.forall_mem_singleton.mp otherName)
  have fronts : (ofNames front).Same (ofNames others) ↔ front = others := by
    constructor
    · exact Workspace.names_eq_of_same inDirectory otherDirectory
    · exact fun same => same ▸ rfl
  have itself : (ofNames (front ++ [fileName])).Same (ofNames (others ++ [other])) → front = others := by
    intro same
    exact (List.append_inj' (Workspace.names_eq_of_same named othersNamed same) rfl).1
  simp only [AlikeFrom, outside, otherOutside, parent, otherParent, fronts,
    moduleKey_eq_index_iff named, ne_eq, isWithin_iff, components_ofNames inDirectory,
    components_ofNames otherDirectory, true_and]
  exact ⟨fun either => either.elim (fun same => .inl (itself same)) id, .inr⟩

/-- From a document that does not lie below one of them, two files of one key are imported by one
specifier just when they are alike from its directory. -/
theorem specifier_eq_iff_alikeFrom {document : Path} {specifier another : String}
    (sameKey : (ofNames (front ++ [fileName])).moduleKey = (ofNames (others ++ [other])).moduleKey)
    (outside : document.normalize.directory.isWithin (ofNames (front ++ [fileName])) = false)
    (otherOutside : document.normalize.directory.isWithin (ofNames (others ++ [other])) = false)
    (found : relativeSpecifier? document (ofNames (front ++ [fileName])) = some specifier)
    (otherFound : relativeSpecifier? document (ofNames (others ++ [other])) = some another) :
    specifier = another ↔ AlikeFrom document.normalize.directory (ofNames (front ++ [fileName]))
      (ofNames (others ++ [other])) := by
  have inDirectory := (List.forall_mem_append.mp named).1
  have otherDirectory := (List.forall_mem_append.mp othersNamed).1
  have pieces := (moduleKey_eq_iff named othersNamed).mp sameKey
  rw [relativeSpecifier?_ofNames named outside found,
    relativeSpecifier?_ofNames othersNamed otherOutside otherFound,
    ofList_joinWith_inj (specifierPieces_ne_nil _ _) (specifierPieces_ne_nil _ _)
      (not_mem_specifierPieces _ named) (not_mem_specifierPieces _ othersNamed),
    specifierPieces_eq_iff inDirectory otherDirectory pieces,
    alikeFrom_iff named othersNamed outside otherOutside]

end Alike

theorem relativeSpecifier?_of_sameKey {document left right : Path} {specifier other : String}
    (leftDown : left.LeadsDown) (rightDown : right.LeadsDown) (sameKey : left.moduleKey = right.moduleKey)
    (leftFound : relativeSpecifier? document left = some specifier)
    (rightFound : relativeSpecifier? document right = some other) :
    (AlikeFrom document.normalize.directory left right → specifier = other) ∧
      (specifier = other → AlikeFrom document.normalize.directory left right ∨
        document.normalize.directory.isWithin left = true ∨
        document.normalize.directory.isWithin right = true) := by
  rcases leftDown.exists_concat leftFound with ⟨front, fileName, named, rfl⟩
  rcases rightDown.exists_concat rightFound with ⟨others, another, othersNamed, rfl⟩
  by_cases outside : document.normalize.directory.isWithin (ofNames (front ++ [fileName])) = false ∧
      document.normalize.directory.isWithin (ofNames (others ++ [another])) = false
  · have alike := specifier_eq_iff_alikeFrom named othersNamed sameKey outside.1 outside.2 leftFound
      rightFound
    exact ⟨alike.mpr, fun same => .inl (alike.mp same)⟩
  · constructor
    · rintro (same | ⟨leftOutside, rightOutside, -⟩)
      · have names := Workspace.names_eq_of_same named othersNamed same
        rw [names, rightFound] at leftFound
        exact (Option.some.inj leftFound).symm
      · exact absurd ⟨leftOutside, rightOutside⟩ outside
    · intro _
      rw [not_and_or, Bool.not_eq_false, Bool.not_eq_false] at outside
      exact .inr outside

/-- A file below which the document does not lie is not imported by its key. -/
theorem specifier_ne_moduleKey {document path : Path} {specifier : String} (down : path.LeadsDown)
    (found : relativeSpecifier? document path = some specifier)
    (outside : document.normalize.directory.isWithin path = false) : specifier ≠ path.moduleKey := by
  rcases down.exists_concat found with ⟨front, fileName, named, rfl⟩
  have nonempty : (keyPieces front fileName).map String.toList ≠ [] := by
    simpa using keyPieces_ne_nil front fileName
  rw [relativeSpecifier?_ofNames named outside found, moduleKey_ofNames named, ne_eq,
    ofList_joinWith_inj (specifierPieces_ne_nil _ _) nonempty (not_mem_specifierPieces _ named)
      (not_mem_keyPieces named)]
  exact specifierPieces_ne_keyPieces _ (List.forall_mem_append.mp named).1

end AutoImport
