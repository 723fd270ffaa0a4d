import AutoImport.Proofs.Ignore.Verdict
import AutoImport.Proofs.Scan.Walk
import Mathlib.Tactic.ByContra
import Mathlib.Tactic.Push

/-!
# A single file and the walk

Whether a walk would find a single file is told from the rules nearest to it, outwards up to the root of
the workspace. The walk itself comes from the other side, does not enter what the outer rules ignore, and
asks the rules above the root as well. This file says when the two agree.
-/

namespace AutoImport.Workspace

open Component Ignore

/-! ## The rules nearest to a file -/

/-- What the rules of a directory say about a file below it. They speak of the file itself first, then of
the directories on the way to it, and last of their own directory. -/
def verdictFrom (workspace : Workspace) (tree : FileTree) (directory : Location)
    (below : List String) : Verdict :=
  verdictWithin (workspace.rulesIn tree (FileTree.pathOf directory)) (namesSlashed below)
    ((List.range below.length).map fun count => namesSlashed (below.take count)).reverse

/-- What the rules of the innermost directory say that has anything to say about a file. -/
def nearestVerdict (workspace : Workspace) (tree : FileTree) (names : List String) : Verdict :=
  Verdict.firstOf ((workspace.directoriesInside names).map fun (directory, below) =>
    workspace.verdictFrom tree directory below)

/-- What the ignore files from the root of the workspace on say about an entry. -/
def ownVerdict (workspace : Workspace) (tree : FileTree) (names : List String) (isDirectory : Bool) :
    Verdict :=
  workspace.verdictAmong tree (workspace.directoriesInside names) isDirectory

theorem namesSlashed_eq (names : List String) :
    namesSlashed names = (Path.ofNames names).spelling.toList :=
  (Path.ofNames_spelling names).symm

theorem hasHiddenName_ofNames {names : List String} (named : ∀ name ∈ names, IsEntryName name) :
    hasHiddenName (Path.ofNames names) = names.any isHiddenName := by
  rw [hasHiddenName, Path.components_ofNames named, List.any_map]
  rfl

theorem parentsOf_ofNames {names : List String} (named : ∀ name ∈ names, IsEntryName name) :
    parentsOf names.length (Path.ofNames names) =
      ((List.range names.length).map fun count => Path.ofNames (names.take count)).reverse := by
  induction names using List.reverseRecOn with
  | nil => rfl
  | append_singleton names name ih =>
      have outer := fun other member => named other (List.mem_append_left [name] member)
      have parent := Path.parent?_ofNames outer (named name (by simp))
      have shorter : ∀ count ∈ List.range names.length,
          Path.ofNames ((names ++ [name]).take count) = Path.ofNames (names.take count) := by
        intro count within
        rw [List.take_append_of_le_length (Nat.le_of_lt (List.mem_range.mp within))]
      rw [List.length_append, List.length_singleton, parentsOf, parent]
      simp only
      rw [ih outer, List.range_succ, List.map_append, List.reverse_append,
        List.map_congr_left shorter]
      simp

/-- The directories on the way to a file. -/
theorem directoriesTo_ofNames {workspace : Workspace} {names : List String}
    (rootNamed : ∀ name ∈ workspace.root, IsEntryName name)
    (named : ∀ name ∈ names, IsEntryName name) (nonempty : names ≠ []) :
    workspace.directoriesTo (Path.ofNames names) =
      (List.range names.length).map fun count =>
        FileTree.pathOf (workspace.root ++ names.take count) := by
  have onward {steps : List String} (stepsNamed : ∀ name ∈ steps, IsEntryName name) :
      (steps.map Component.name).foldl (fun directory step => directory.join ⟨step.spelling⟩)
        workspace.rootPath = FileTree.pathOf (workspace.root ++ steps) := by
    induction steps using List.reverseRecOn with
    | nil => rw [List.append_nil]; rfl
    | append_singleton steps step ih =>
        have before := fun other member => stepsNamed other (List.mem_append_left [step] member)
        have all : ∀ name ∈ workspace.root ++ steps, IsEntryName name := by
          intro name member
          rcases List.mem_append.mp member with outer | inner
          · exact rootNamed name outer
          · exact before name inner
        rw [List.map_append, List.foldl_append, ih before, ← List.append_assoc]
        exact Path.pathOf_join_name all (stepsNamed step (by simp))
  obtain ⟨front, last, rfl⟩ : ∃ front last, names = front ++ [last] :=
    ⟨_, _, (List.dropLast_concat_getLast nonempty).symm⟩
  have outer := fun other member => named other (List.mem_append_left [last] member)
  rw [directoriesTo, Path.parent?_ofNames outer (named last (by simp))]
  simp only [Option.map_some, Option.getD_some, Path.components_ofNames outer, FileTree.beginnings,
    List.length_map, List.length_append, List.length_singleton, List.map_map]
  refine List.map_congr_left fun count within => ?_
  have short : count ≤ front.length := Nat.lt_succ_iff.mp (List.mem_range.mp within)
  have inner := fun other member => outer other (List.mem_of_mem_take (i := count) member)
  rw [Function.comp_apply, ← List.map_take, onward inner, List.take_append_of_le_length short]

/-- A file as it is seen from a directory on the way to it. -/
theorem seenFrom_pathOf (directory : Location) {names : List String}
    (named : ∀ name ∈ names, IsEntryName name) (nonempty : names ≠ []) :
    seenFrom (FileTree.pathOf directory) (FileTree.pathOf (directory ++ names)) =
      Path.ofNames names := by
  have cut {directory path rest : Path} {more : List Char}
      (shape : path.spelling.toList = directory.spelling.toList ++ more)
      (plain : more = '/' :: rest.spelling.toList ∨
        more = rest.spelling.toList ∧ rest.isAbsolute = false) : seenFrom directory path = rest := by
    apply Path.ext_toList
    rw [seenFrom, Text.dropPrefix?_eq_some_iff.mpr shape]
    rcases plain with rfl | ⟨rfl, relative⟩
    · exact String.toList_ofList
    · split
      · rename_i slash
        rw [Path.isAbsolute, Bool.eq_false_iff] at relative
        exact absurd (Text.startsWith_iff.mpr ⟨_, Option.some.inj slash⟩) relative
      · rename_i same
        rw [← Option.some.inj same, String.toList_ofList]
      · rename_i missing
        simp at missing
  by_cases empty : directory = []
  · subst empty
    refine cut ?_ (.inr ⟨rfl, Path.isAbsolute_ofNames named⟩)
    rw [Path.pathOf_spelling, Path.ofNames_spelling, Path.pathOf_spelling]
    rfl
  · refine cut ?_ (.inl rfl)
    rw [Path.pathOf_spelling, Path.pathOf_spelling, Path.ofNames_spelling, List.map_append,
      Path.joinWith_append (by simpa using empty) (by simpa using nonempty), List.cons_append]

theorem verdictWithin_seenFrom (workspace : Workspace) (tree : FileTree) (directory : Location)
    {below : List String} (named : ∀ name ∈ below, IsEntryName name) (nonempty : below ≠ []) :
    (let seen := seenFrom (FileTree.pathOf directory) (FileTree.pathOf (directory ++ below))
     verdictWithin (workspace.rulesIn tree (FileTree.pathOf directory)) seen.spelling.toList
      ((parentsOf seen.components.length seen).map fun parent => parent.spelling.toList)) =
      workspace.verdictFrom tree directory below := by
  rw [seenFrom_pathOf directory named nonempty]
  simp only [Path.components_ofNames named, List.length_map, parentsOf_ofNames named,
    List.map_reverse, List.map_map, verdictFrom, namesSlashed_eq, Function.comp_def]

theorem isIgnored_ofNames {workspace : Workspace} (tree : FileTree) {names : List String}
    (rootNamed : ∀ name ∈ workspace.root, IsEntryName name)
    (named : ∀ name ∈ names, IsEntryName name) (nonempty : names ≠ []) :
    workspace.isIgnored tree (Path.ofNames names) =
      (workspace.nearestVerdict tree names == .ignored) := by
  have absolute : workspace.rootPath.join (Path.ofNames names) =
      FileTree.pathOf (workspace.root ++ names) := Path.pathOf_join rootNamed named nonempty
  unfold isIgnored nearestVerdict directoriesInside
  simp only [absolute, directoriesTo_ofNames rootNamed named nonempty, ← List.map_reverse, List.map_map]
  refine congrArg (Verdict.firstOf · == .ignored) (List.map_congr_left fun count within => ?_)
  have short : count < names.length := List.mem_range.mp (List.mem_reverse.mp within)
  have below := fun name member => named name (List.mem_of_mem_drop (i := count) member)
  have told := workspace.verdictWithin_seenFrom tree (workspace.root ++ names.take count) below
    (by simpa using short)
  rw [List.append_assoc, List.take_append_drop] at told
  exact told

/-- No rules are read where there is no directory. -/
theorem rulesIn_of_file {workspace : Workspace} {tree : FileTree} (wellFormed : tree.WellFormed)
    {location : Location} {content : FileContent}
    (there : tree.node? location = some (.file content)) :
    workspace.rulesIn tree (FileTree.pathOf location) = [] := by
  have inDirectory := wellFormed.isEntryName (by rw [there]; rfl)
  have unread : ∀ file ∈ [".ignore", ".gitignore", ".git/info/exclude"],
      tree.content? ((FileTree.pathOf location).join ⟨file⟩) = none := by
    intro file ignores
    obtain ⟨relative, names, configured, spells⟩ := spelling_of_ignoreFile ignores
    have nonempty : names ≠ [] := by
      rintro rfl
      simp [configurationNames] at configured
    exact wellFormed.content?_below_file
      (Path.components_pathOf_join_of_spells inDirectory relative spells) there nonempty
  have ignore := unread ".ignore" (by simp)
  have gitignore := unread ".gitignore" (by simp)
  have exclude := unread ".git/info/exclude" (by simp)
  simp only [rulesIn]
  split <;> split <;> simp [ignore, gitignore, exclude]

theorem verdictWithin_nil (path : List Char) (above : List (List Char)) :
    verdictWithin [] path above = .silent := by
  simp only [verdictWithin, verdictOf_nil, Verdict.firstOf, List.foldr_cons]
  induction above with
  | nil => rfl
  | cons directory above ih => exact ih

/-- What is asked of a single file beyond the patterns. -/
theorem accepts_ofNames {workspace : Workspace} {tree : FileTree} {names : List String}
    {content : FileContent} (wellFormed : tree.WellFormed)
    (there : tree.node? (workspace.root ++ names) = some (.file content)) :
    workspace.accepts tree (Path.ofNames names) = true ↔
      workspace.filter.accepts (Path.ofNames names) = true ∧
        (∀ name ∈ names, isHiddenName name = false) ∧
          workspace.nearestVerdict tree names ≠ .ignored := by
  have all := wellFormed.isEntryName (by rw [there]; rfl)
  have rootNamed := fun name member => all name (List.mem_append_left names member)
  have named := fun name member => all name (List.mem_append_right workspace.root member)
  have ignored : workspace.isIgnored tree (Path.ofNames names) =
      (workspace.nearestVerdict tree names == .ignored) := by
    by_cases empty : names = []
    · subst empty
      rw [List.append_nil] at there
      have unruled : workspace.rulesIn tree workspace.rootPath = [] := rulesIn_of_file wellFormed there
      have only : workspace.directoriesTo (Path.ofNames []) = [workspace.rootPath] := rfl
      rw [isIgnored, only]
      simp only [List.reverse_singleton, List.map_singleton, unruled, verdictWithin_nil]
      rfl
    · exact isIgnored_ofNames tree rootNamed named empty
  simp [accepts, ignored, hasHiddenName_ofNames named, and_assoc]

/-! ## Where the two differ -/

/-- The ways in which a file that the patterns accept is judged otherwise than by a walk. `count` numbers
the entries on the way to the file, from below the root to the file itself. -/
inductive Misjudged (workspace : Workspace) (tree : FileTree) (names : List String) : Prop where
  /-- The nearest rules let the file be, but a walk does not get there, since rules ignore an entry on the
  way. -/
  | ignoredOnTheWay {count : Nat} (onTheWay : count < names.length)
      (visible : ∀ name ∈ names, isHiddenName name = false)
      (letBe : workspace.nearestVerdict tree names ≠ .ignored)
      (ignored : workspace.verdict tree (names.take (count + 1)) (count + 1 < names.length) = .ignored)
      (inside : workspace.ownVerdict tree (names.take (count + 1)) (count + 1 < names.length) = .ignored)
  /-- The nearest rules let the file be, but a walk does not get there, since rules above the root of the
  workspace ignore an entry on the way. They are not among those nearest to a file. -/
  | ignoredFromOutside {count : Nat} (onTheWay : count < names.length)
      (visible : ∀ name ∈ names, isHiddenName name = false)
      (letBe : workspace.nearestVerdict tree names ≠ .ignored)
      (ignored : workspace.verdict tree (names.take (count + 1)) (count + 1 < names.length) = .ignored)
      (outside : workspace.ownVerdict tree (names.take (count + 1)) (count + 1 < names.length) ≠ .ignored)
  /-- The nearest rules let the file be, but a walk does not enter a directory on the way, from which all
  is taken to be left out. -/
  | notEntered {count : Nat} (onTheWay : count + 1 < names.length)
      (visible : ∀ name ∈ names, isHiddenName name = false)
      (letBe : workspace.nearestVerdict tree names ≠ .ignored)
      (pruned : workspace.filter.prunes (Path.ofNames (names.take (count + 1))) = true)
  /-- A walk gets to the file, since the rules take back a hidden entry on the way. -/
  | hiddenKept {count : Nat} (onTheWay : count < names.length)
      (hidden : isHiddenName names[count] = true)
      (kept : workspace.verdict tree (names.take (count + 1)) (count + 1 < names.length) = .kept)
      (reached : workspace.reaches tree names false = true)
  /-- A walk gets to the file, but the nearest rules ignore it. -/
  | ignoredNearby (ignored : workspace.nearestVerdict tree names = .ignored)
      (reached : workspace.reaches tree names false = true)

theorem passesOver_iff {workspace : Workspace} {tree : FileTree} {names : List String}
    {isDirectory : Bool} :
    workspace.passesOver tree names isDirectory = true ↔
      workspace.verdict tree names isDirectory = .ignored ∨
      (workspace.verdict tree names isDirectory = .silent ∧
        ∃ name, names.getLast? = some name ∧ isHiddenName name = true) ∨
      (isDirectory = true ∧ workspace.filter.prunes (Path.ofNames names) = true) := by
  have path : Path.mk (String.ofList (namesSlashed names)) = Path.ofNames names := by
    apply Path.ext_toList
    rw [String.toList_ofList, namesSlashed_eq]
  rw [passesOver, path]
  cases workspace.verdict tree names isDirectory <;> cases names.getLast? <;> simp

/-- A walk gets to a file when it passes over nothing on the way. -/
theorem reaches_iff {workspace : Workspace} {tree : FileTree} {names : List String} :
    workspace.reaches tree names false = true ↔
      ∀ count < names.length,
        ¬workspace.passesOver tree (names.take (count + 1)) (count + 1 < names.length) = true := by
  simp [reaches]

theorem getLast?_take_succ {names : List String} {count : Nat} (within : count < names.length) :
    (names.take (count + 1)).getLast? = some names[count] := by
  rw [List.take_succ_eq_append_getElem within, List.getLast?_concat]

/-- Where a walk gets by a hidden entry, the rules take it back. -/
theorem kept_of_reaches {workspace : Workspace} {tree : FileTree} {names : List String} {count : Nat}
    (onTheWay : count < names.length) (hidden : isHiddenName names[count] = true)
    (reached : workspace.reaches tree names false = true) :
    workspace.verdict tree (names.take (count + 1)) (count + 1 < names.length) = .kept := by
  have passed := reaches_iff.mp reached count onTheWay
  rw [passesOver_iff, not_or, not_or] at passed
  obtain ⟨notIgnored, notHidden, -⟩ := passed
  cases said : workspace.verdict tree (names.take (count + 1)) (count + 1 < names.length) with
  | silent => exact absurd ⟨said, _, getLast?_take_succ onTheWay, hidden⟩ notHidden
  | ignored => exact absurd said notIgnored
  | kept => rfl

/-- What keeps a walk from a file in whose path nothing is hidden. -/
theorem exists_of_not_reaches {workspace : Workspace} {tree : FileTree} {names : List String}
    (visible : ∀ name ∈ names, isHiddenName name = false)
    (missed : ¬workspace.reaches tree names false = true) :
    ∃ count < names.length,
      workspace.verdict tree (names.take (count + 1)) (count + 1 < names.length) = .ignored ∨
        (count + 1 < names.length ∧
          workspace.filter.prunes (Path.ofNames (names.take (count + 1))) = true) := by
  rw [reaches_iff] at missed
  push Not at missed
  obtain ⟨count, onTheWay, passed⟩ := missed
  refine ⟨count, onTheWay, ?_⟩
  rcases passesOver_iff.mp passed with ignored | ⟨-, name, last, hidden⟩ | ⟨inside, pruned⟩
  · exact .inl ignored
  · rw [getLast?_take_succ onTheWay, Option.some.injEq] at last
    have seen := visible _ (List.getElem_mem onTheWay)
    rw [last, hidden] at seen
    contradiction
  · exact .inr ⟨of_decide_eq_true inside, pruned⟩

theorem misjudged_iff {workspace : Workspace} {tree : FileTree} {names : List String} :
    workspace.Misjudged tree names ↔
      ¬(((∀ name ∈ names, isHiddenName name = false) ∧
        workspace.nearestVerdict tree names ≠ .ignored) ↔
          workspace.reaches tree names false = true) := by
  constructor
  · intro misjudged agreed
    cases misjudged with
    | ignoredOnTheWay onTheWay visible letBe ignored =>
        exact reaches_iff.mp (agreed.mp ⟨visible, letBe⟩) _ onTheWay (passesOver_iff.mpr (.inl ignored))
    | ignoredFromOutside onTheWay visible letBe ignored =>
        exact reaches_iff.mp (agreed.mp ⟨visible, letBe⟩) _ onTheWay (passesOver_iff.mpr (.inl ignored))
    | notEntered onTheWay visible letBe pruned =>
        have inside := decide_eq_true onTheWay
        exact reaches_iff.mp (agreed.mp ⟨visible, letBe⟩) _ (Nat.lt_of_succ_lt onTheWay)
          (passesOver_iff.mpr (.inr (.inr ⟨inside, pruned⟩)))
    | hiddenKept onTheWay hidden kept reached =>
        have visible := (agreed.mpr reached).1 _ (List.getElem_mem onTheWay)
        rw [visible] at hidden
        contradiction
    | ignoredNearby ignored reached => exact (agreed.mpr reached).2 ignored
  · intro differ
    by_cases visible : ∀ name ∈ names, isHiddenName name = false
    · by_cases ignored : workspace.nearestVerdict tree names = .ignored
      · by_cases reached : workspace.reaches tree names false = true
        · exact .ignoredNearby ignored reached
        · exact absurd (iff_of_false (fun both => both.2 ignored) reached) differ
      · have missed : ¬workspace.reaches tree names false = true :=
          fun reached => differ (iff_of_true ⟨visible, ignored⟩ reached)
        obtain ⟨count, onTheWay, outer | ⟨inside, pruned⟩⟩ := exists_of_not_reaches visible missed
        · by_cases own : workspace.ownVerdict tree (names.take (count + 1))
              (count + 1 < names.length) = .ignored
          · exact .ignoredOnTheWay onTheWay visible ignored outer own
          · exact .ignoredFromOutside onTheWay visible ignored outer own
        · exact .notEntered inside visible ignored pruned
    · have reached : workspace.reaches tree names false = true := by
        by_contra missed
        exact differ (iff_of_false (fun both => visible both.1) missed)
      push Not at visible
      obtain ⟨name, member, seen⟩ := visible
      obtain ⟨count, onTheWay, rfl⟩ := List.getElem_of_mem member
      have hidden : isHiddenName names[count] = true := by simpa using seen
      exact .hiddenKept onTheWay hidden (kept_of_reaches onTheWay hidden reached) reached

theorem mem_collect_ofNames {workspace : Workspace} {tree : FileTree} {names : List String}
    {content : FileContent} (wellFormed : tree.WellFormed)
    (there : tree.node? (workspace.root ++ names) = some (.file content)) :
    Path.ofNames names ∈ workspace.collect tree ↔
      workspace.filter.accepts (Path.ofNames names) = true ∧
        workspace.reaches tree names false = true := by
  have named : ∀ name ∈ names, IsEntryName name := fun name member =>
    wellFormed.isEntryName (by rw [there]; rfl) name (List.mem_append_right _ member)
  constructor
  · intro member
    have found := finds_of_mem_collect wellFormed named member
    exact ⟨found.accepted, found.reached⟩
  · rintro ⟨accepted, reached⟩
    exact (Finds.mk ⟨content, there⟩ reached accepted).mem_collect wellFormed

/-- A workspace of the sources below the directory `w`. -/
def ofSources : Workspace :=
  ⟨["w"], ⟨(Glob.Pattern.parse? "**/*.ts").toList, [], []⟩, true⟩

/-- A rule above the root of the workspace ignores the sources. -/
def ignoredAboveRoot : FileTree :=
  ⟨[([".ignore"], .file (.text "*.ts\n")), (["w"], .directory),
    (["w", "a.ts"], .file (.text "export let a"))]⟩

example : ofSources.verdict ignoredAboveRoot ["a.ts"] false = .ignored ∧
    ofSources.ownVerdict ignoredAboveRoot ["a.ts"] false = .silent ∧
    ofSources.accepts ignoredAboveRoot ⟨"a.ts"⟩ = true := by
  decide +kernel

end AutoImport.Workspace
