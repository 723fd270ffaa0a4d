import AutoImport.Proofs.Scan.Accepts
import Mathlib.Tactic.Tauto

/-!
# Where a single file is judged as by the walk

Ignore files that take nothing back say the same from within and from without: an entry is passed over
when some rule on the way speaks of it or of a directory above it. Below the usual ignore files a single
file is therefore judged as by the walk.
-/

namespace AutoImport.Workspace

open Component Ignore

/-- The ignore files that are read in a directory, those that decide first. -/
def ignoreFiles (workspace : Workspace) : List String :=
  if workspace.respectGitignore then [".ignore", ".gitignore", ".git/info/exclude"] else [".ignore"]

/-- The ignore files that are read in a directory when a single file is judged. -/
def filesIn (workspace : Workspace) (directory : Path) : List String :=
  (if workspace.respectGitignore then
    (if directory.Same workspace.rootPath then [".git/info/exclude"] else []) ++ [".gitignore"]
  else []) ++ [".ignore"]

/-- Both ways the same files are read, but for an exclude file below the root. -/
theorem mem_filesIn_iff {workspace : Workspace} {directory : Path} {file : String} :
    file ∈ workspace.filesIn directory ↔
      file ∈ workspace.ignoreFiles ∧
        (file = ".git/info/exclude" → directory.Same workspace.rootPath) := by
  unfold filesIn ignoreFiles
  by_cases same : directory.Same workspace.rootPath <;>
    cases workspace.respectGitignore <;> simp [same]
  · tauto
  · rintro rfl
    simp
  · constructor
    · rintro (rfl | rfl) <;> simp
    · tauto

/-! ## Rules by their files -/

theorem mem_rulesAt_iff {tree : FileTree} {directory : Location} {file : Path} {rule : Rule} :
    rule ∈ rulesAt tree directory file ↔
      ∃ content, tree.content? ((FileTree.pathOf directory).join file) = some content ∧
        rule ∈ (RuleFile.ofContent content).rules := by
  unfold rulesAt
  generalize tree.content? ((FileTree.pathOf directory).join file) = content?
  cases content? with
  | none => simp
  | some content => simp

/-- Where the ignore files of a directory can be read in full, its rules are those of the files. -/
theorem mem_rulesIn_iff {workspace : Workspace} {tree : FileTree} {directory : Location}
    (intact : ∀ file ∈ workspace.filesIn (FileTree.pathOf directory), ∀ content,
      tree.content? ((FileTree.pathOf directory).join ⟨file⟩) = some content →
        (RuleFile.ofContent content).intact = true) {rule : Rule} :
    rule ∈ workspace.rulesIn tree (FileTree.pathOf directory) ↔
      ∃ file ∈ workspace.filesIn (FileTree.pathOf directory), rule ∈ rulesAt tree directory ⟨file⟩ := by
  have shape : workspace.rulesIn tree (FileTree.pathOf directory) =
      (let files := (workspace.filesIn (FileTree.pathOf directory)).filterMap fun name =>
        (tree.content? ((FileTree.pathOf directory).join ⟨name⟩)).map RuleFile.ofContent
       if files.any RuleFile.intact then files.flatMap RuleFile.rules else []) := rfl
  rw [shape]
  simp only [mem_rulesAt_iff]
  generalize workspace.filesIn (FileTree.pathOf directory) = names at intact ⊢
  generalize FileTree.pathOf directory = path at intact ⊢
  constructor
  · intro member
    split at member
    · obtain ⟨file, inside, has⟩ := List.mem_flatMap.mp member
      obtain ⟨name, named, found⟩ := List.mem_filterMap.mp inside
      obtain ⟨content, there, rfl⟩ := Option.map_eq_some_iff.mp found
      exact ⟨name, named, content, there, has⟩
    · simp at member
  · rintro ⟨name, named, content, there, has⟩
    have inside : RuleFile.ofContent content ∈ names.filterMap fun name =>
        (tree.content? (path.join ⟨name⟩)).map RuleFile.ofContent :=
      List.mem_filterMap.mpr ⟨name, named, by rw [there]; rfl⟩
    have whole := List.any_eq_true.mpr ⟨_, inside, intact name named content there⟩
    rw [if_pos whole]
    exact List.mem_flatMap.mpr ⟨_, inside, has⟩

/-- The ignore files on the way to a file can be read in full and take nothing back, none of their rules
speaks of the directory that it lies in, the exclude file is that of the root, and above the root there are
no rules. -/
structure IgnoresPlainly (workspace : Workspace) (tree : FileTree) (names : List String) : Prop where
  only : ∀ count < names.length, ∀ file ∈ workspace.ignoreFiles,
    OnlyIgnore (rulesAt tree (workspace.root ++ names.take count) ⟨file⟩)
  outward : ∀ count < names.length, ∀ file ∈ workspace.ignoreFiles,
    ∀ rule ∈ rulesAt tree (workspace.root ++ names.take count) ⟨file⟩, fits rule.pattern [] = false
  intact : ∀ count < names.length, ∀ file ∈ workspace.ignoreFiles, ∀ content,
    tree.content? ((FileTree.pathOf (workspace.root ++ names.take count)).join ⟨file⟩) = some content →
      (RuleFile.ofContent content).intact = true
  outermost : ∀ count < names.length, 0 < count →
    rulesAt tree (workspace.root ++ names.take count) ⟨".git/info/exclude"⟩ = []
  outside : ∀ count < workspace.root.length, ∀ file ∈ workspace.ignoreFiles,
    rulesAt tree (workspace.root.take count) ⟨file⟩ = []

/-- A rule in a directory on the way speaks of an entry. -/
def SpokenOf (workspace : Workspace) (tree : FileTree) (names : List String) (isDirectory : Bool) :
    Prop :=
  ∃ count < names.length, ∃ file ∈ workspace.ignoreFiles,
    ∃ rule ∈ rulesAt tree (workspace.root ++ names.take count) ⟨file⟩,
      rule.SpeaksOf (namesSlashed (names.drop count)) isDirectory

/-! ## The walk -/

theorem verdictAmong_eq_firstOf (workspace : Workspace) (tree : FileTree)
    (directories : List (Location × List String)) (isDirectory : Bool) :
    workspace.verdictAmong tree directories isDirectory =
      Verdict.firstOf (workspace.ignoreFiles.map fun file =>
        verdictOfKind tree ⟨file⟩ directories isDirectory) := by
  have last (verdict : Verdict) : verdict.orElse .silent = verdict := by
    cases verdict <;> rfl
  unfold verdictAmong ignoreFiles
  split <;> simp [Verdict.firstOf, last]

/-- Without rules above the root of the workspace, the ignore files from the root on decide. -/
theorem verdict_eq_ownVerdict {workspace : Workspace} {tree : FileTree}
    (outside : ∀ count < workspace.root.length, ∀ file ∈ workspace.ignoreFiles,
      rulesAt tree (workspace.root.take count) ⟨file⟩ = []) (names : List String)
    (isDirectory : Bool) :
    workspace.verdict tree names isDirectory = workspace.ownVerdict tree names isDirectory := by
  rw [verdict, ownVerdict, verdictAmong_eq_firstOf, verdictAmong_eq_firstOf]
  refine congrArg Verdict.firstOf (List.map_congr_left fun file ignores => ?_)
  rw [verdictOfKind, directoriesAbove, List.map_append]
  refine Verdict.firstOf_append_silent _ fun verdict member => ?_
  obtain ⟨entry, above, rfl⟩ := List.mem_map.mp member
  obtain ⟨count, within, rfl⟩ := mem_directoriesOutside_iff.mp above
  simp only [outside count within file ignores, verdictOf_nil]

section

variable {workspace : Workspace} {tree : FileTree} {names : List String}
  (only : ∀ count < names.length, ∀ file ∈ workspace.ignoreFiles,
    OnlyIgnore (rulesAt tree (workspace.root ++ names.take count) ⟨file⟩))
  (isDirectory : Bool)
include only

theorem verdictOfKind_of_onlyIgnore {file : String} (ignores : file ∈ workspace.ignoreFiles) :
    verdictOfKind tree ⟨file⟩ (workspace.directoriesInside names) isDirectory ≠ .kept ∧
      (verdictOfKind tree ⟨file⟩ (workspace.directoriesInside names) isDirectory = .ignored ↔
        ∃ count < names.length, ∃ rule ∈ rulesAt tree (workspace.root ++ names.take count) ⟨file⟩,
          rule.SpeaksOf (namesSlashed (names.drop count)) isDirectory) := by
  have never : ∀ verdict ∈ (workspace.directoriesInside names).map (fun entry =>
      verdictOf (rulesAt tree entry.1 ⟨file⟩) (namesSlashed entry.2) isDirectory),
      verdict ≠ .kept := by
    intro verdict member
    obtain ⟨entry, above, rfl⟩ := List.mem_map.mp member
    obtain ⟨count, within, rfl⟩ := mem_directoriesInside_iff.mp above
    exact (only count within file ignores).verdictOf_ne_kept _ _
  refine ⟨Verdict.firstOf_ne_kept never, ?_⟩
  refine (Verdict.firstOf_eq_ignored_iff never).trans ?_
  rw [List.mem_map]
  constructor
  · rintro ⟨entry, above, said⟩
    obtain ⟨count, within, rfl⟩ := mem_directoriesInside_iff.mp above
    exact ⟨count, within, ((only count within file ignores).verdictOf_eq_ignored_iff _ _).mp said⟩
  · rintro ⟨count, within, spoken⟩
    exact ⟨_, mem_directoriesInside_iff.mpr ⟨count, within, rfl⟩,
      ((only count within file ignores).verdictOf_eq_ignored_iff _ _).mpr spoken⟩

theorem ownVerdict_of_onlyIgnore :
    workspace.ownVerdict tree names isDirectory ≠ .kept ∧
      (workspace.ownVerdict tree names isDirectory = .ignored ↔
        workspace.SpokenOf tree names isDirectory) := by
  have never : ∀ verdict ∈ workspace.ignoreFiles.map (fun file =>
      verdictOfKind tree ⟨file⟩ (workspace.directoriesInside names) isDirectory),
      verdict ≠ .kept := by
    intro verdict member
    obtain ⟨file, ignores, rfl⟩ := List.mem_map.mp member
    exact (verdictOfKind_of_onlyIgnore only isDirectory ignores).1
  rw [ownVerdict, verdictAmong_eq_firstOf]
  refine ⟨Verdict.firstOf_ne_kept never, ?_⟩
  rw [Verdict.firstOf_eq_ignored_iff never, List.mem_map]
  constructor
  · rintro ⟨file, ignores, said⟩
    obtain ⟨count, within, rule, member, speaks⟩ :=
      (verdictOfKind_of_onlyIgnore only isDirectory ignores).2.mp said
    exact ⟨count, within, file, ignores, rule, member, speaks⟩
  · rintro ⟨count, within, file, ignores, rule, member, speaks⟩
    exact ⟨file, ignores, (verdictOfKind_of_onlyIgnore only isDirectory ignores).2.mpr
      ⟨count, within, rule, member, speaks⟩⟩

end

/-! ## A single file -/

namespace IgnoresPlainly

variable {workspace : Workspace} {tree : FileTree} {names : List String}

theorem take (plain : workspace.IgnoresPlainly tree names) (length : Nat) :
    ∀ count < (names.take length).length, ∀ file ∈ workspace.ignoreFiles,
      OnlyIgnore (rulesAt tree (workspace.root ++ (names.take length).take count) ⟨file⟩) := by
  intro count within file ignores
  rw [List.length_take, Nat.lt_min] at within
  rw [List.take_take, Nat.min_eq_left (Nat.le_of_lt within.1)]
  exact plain.only count within.2 file ignores

/-- From within the same rules are read as from without. -/
theorem mem_rulesIn_iff (plain : workspace.IgnoresPlainly tree names) {count : Nat}
    (within : count < names.length) {rule : Rule} :
    rule ∈ workspace.rulesIn tree (FileTree.pathOf (workspace.root ++ names.take count)) ↔
      ∃ file ∈ workspace.ignoreFiles,
        rule ∈ rulesAt tree (workspace.root ++ names.take count) ⟨file⟩ := by
  rw [Workspace.mem_rulesIn_iff fun file member =>
    plain.intact count within file (mem_filesIn_iff.mp member).1]
  constructor
  · rintro ⟨file, member, has⟩
    exact ⟨file, (mem_filesIn_iff.mp member).1, has⟩
  · rintro ⟨file, ignores, has⟩
    refine ⟨file, mem_filesIn_iff.mpr ⟨ignores, ?_⟩, has⟩
    rintro rfl
    rcases Nat.eq_zero_or_pos count with rfl | inner
    · rw [List.take_zero, List.append_nil]
      rfl
    · rw [plain.outermost count within inner] at has
      simp at has

theorem onlyIgnore_rulesIn (plain : workspace.IgnoresPlainly tree names) {count : Nat}
    (within : count < names.length) :
    OnlyIgnore (workspace.rulesIn tree (FileTree.pathOf (workspace.root ++ names.take count))) := by
  intro rule member
  obtain ⟨file, ignores, has⟩ := (plain.mem_rulesIn_iff within).mp member
  exact plain.only count within file ignores rule has

/-- A directory ignores a file when one of its rules speaks of an entry on the way. -/
theorem verdictFrom_eq_ignored_iff (plain : workspace.IgnoresPlainly tree names) {count : Nat}
    (within : count < names.length) :
    workspace.verdictFrom tree (workspace.root ++ names.take count) (names.drop count) = .ignored ↔
      ∃ last < names.length, count ≤ last ∧ ∃ file ∈ workspace.ignoreFiles,
        ∃ rule ∈ rulesAt tree (workspace.root ++ names.take count) ⟨file⟩,
          rule.SpeaksOf (namesSlashed ((names.take (last + 1)).drop count))
            (last + 1 < names.length) := by
  have only := plain.onlyIgnore_rulesIn within
  rw [verdictFrom, only.verdictWithin_eq_ignored_iff]
  constructor
  · rintro (⟨rule, member, speaks⟩ | ⟨directory, above, rule, member, speaks⟩)
    · obtain ⟨file, ignores, has⟩ := (plain.mem_rulesIn_iff within).mp member
      refine ⟨names.length - 1, by omega, by omega, file, ignores, rule, has, ?_⟩
      rw [Nat.sub_add_cancel (by omega), List.take_length]
      simpa using speaks
    · obtain ⟨file, ignores, has⟩ := (plain.mem_rulesIn_iff within).mp member
      rw [List.mem_reverse, List.mem_map] at above
      obtain ⟨length, short, rfl⟩ := above
      rw [List.mem_range, List.length_drop] at short
      have nonzero : length ≠ 0 := by
        rintro rfl
        have silent := plain.outward count within file ignores rule has
        have fitting : fits rule.pattern [] = true := speaks.2
        rw [silent] at fitting
        contradiction
      refine ⟨count + length - 1, by omega, by omega, file, ignores, rule, has, ?_⟩
      rw [Nat.sub_add_cancel (by omega), List.drop_take, Nat.add_sub_cancel_left,
        decide_eq_true (by omega)]
      exact speaks
  · rintro ⟨last, inside, after, file, ignores, rule, has, speaks⟩
    have member := (plain.mem_rulesIn_iff within).mpr ⟨file, ignores, has⟩
    rcases Nat.lt_or_ge (last + 1) names.length with between | final
    · refine .inr ⟨_, List.mem_reverse.mpr (List.mem_map.mpr ⟨last + 1 - count, ?_, rfl⟩), rule,
        member, ?_⟩
      · rw [List.mem_range, List.length_drop]
        omega
      · rw [List.drop_take, decide_eq_true between] at speaks
        exact speaks
    · refine .inl ⟨rule, member, ?_⟩
      rw [List.take_of_length_le final, decide_eq_false (by omega)] at speaks
      exact speaks

theorem nearestVerdict_eq_ignored_iff (plain : workspace.IgnoresPlainly tree names) :
    workspace.nearestVerdict tree names = .ignored ↔
      ∃ count < names.length,
        workspace.SpokenOf tree (names.take (count + 1)) (count + 1 < names.length) := by
  have never : ∀ verdict ∈ (workspace.directoriesInside names).map (fun entry =>
      workspace.verdictFrom tree entry.1 entry.2), verdict ≠ .kept := by
    intro verdict member
    obtain ⟨entry, above, rfl⟩ := List.mem_map.mp member
    obtain ⟨count, within, rfl⟩ := mem_directoriesInside_iff.mp above
    exact (plain.onlyIgnore_rulesIn within).verdictWithin_ne_kept _ _
  refine (Verdict.firstOf_eq_ignored_iff never).trans ?_
  rw [List.mem_map]
  constructor
  · rintro ⟨entry, above, ignored⟩
    obtain ⟨count, within, rfl⟩ := mem_directoriesInside_iff.mp above
    obtain ⟨last, inside, after, file, ignores, rule, has, speaks⟩ :=
      (plain.verdictFrom_eq_ignored_iff within).mp ignored
    refine ⟨last, inside, count, ?_, file, ignores, rule, ?_, speaks⟩
    · rw [List.length_take]
      omega
    · rw [List.take_take, Nat.min_eq_left (by omega)]
      exact has
  · rintro ⟨last, inside, count, within, file, ignores, rule, has, speaks⟩
    rw [List.length_take] at within
    rw [List.take_take, Nat.min_eq_left (by omega)] at has
    refine ⟨_, mem_directoriesInside_iff.mpr ⟨count, by omega, rfl⟩, ?_⟩
    exact (plain.verdictFrom_eq_ignored_iff (by omega)).mpr
      ⟨last, inside, by omega, file, ignores, rule, has, speaks⟩

end IgnoresPlainly

/-- Below plain ignore files a file is not misjudged, unless a directory on the way is not entered. -/
theorem not_misjudged_of_ignoresPlainly {workspace : Workspace} {tree : FileTree} {names : List String}
    (plain : workspace.IgnoresPlainly tree names)
    (entered : ∀ count, count + 1 < names.length →
      workspace.filter.prunes (Path.ofNames (names.take (count + 1))) = false) :
    ¬workspace.Misjudged tree names := by
  have verdictAt (count : Nat) :
      workspace.verdict tree (names.take (count + 1)) (count + 1 < names.length) ≠ .kept ∧
        (workspace.verdict tree (names.take (count + 1)) (count + 1 < names.length) = .ignored ↔
          workspace.SpokenOf tree (names.take (count + 1)) (count + 1 < names.length)) := by
    rw [verdict_eq_ownVerdict plain.outside]
    exact ownVerdict_of_onlyIgnore (plain.take (count + 1)) _
  intro misjudged
  cases misjudged with
  | ignoredOnTheWay onTheWay _ letBe ignored =>
      exact letBe (plain.nearestVerdict_eq_ignored_iff.mpr ⟨_, onTheWay, (verdictAt _).2.mp ignored⟩)
  | ignoredFromOutside onTheWay _ _ ignored outside =>
      rw [verdict_eq_ownVerdict plain.outside] at ignored
      exact outside ignored
  | notEntered onTheWay _ _ pruned =>
      rw [entered _ onTheWay] at pruned
      contradiction
  | hiddenKept _ _ kept _ => exact (verdictAt _).1 kept
  | ignoredNearby ignored reached =>
      obtain ⟨count, onTheWay, spoken⟩ := plain.nearestVerdict_eq_ignored_iff.mp ignored
      exact reaches_iff.mp reached count onTheWay (passesOver_iff.mpr (.inl ((verdictAt count).2.mpr spoken)))

/-- Below plain ignore files it is told of every file without walking whether a walk finds it. -/
theorem acceptsFound_of_ignoresPlainly {workspace : Workspace} {tree : FileTree}
    (wellFormed : tree.WellFormed)
    (plain : ∀ names content, tree.node? (workspace.root ++ names) = some (.file content) →
      workspace.IgnoresPlainly tree names)
    (entered : ∀ names, workspace.filter.accepts (Path.ofNames names) = true →
      ∀ count, count + 1 < names.length →
        workspace.filter.prunes (Path.ofNames (names.take (count + 1))) = false) :
    workspace.AcceptsFound tree := by
  intro names content there
  rw [accepts_ofNames wellFormed there, mem_collect_ofNames wellFormed there]
  refine and_congr_right fun accepted => ?_
  have judged :=
    not_misjudged_of_ignoresPlainly (plain names content there) (entered names accepted)
  rwa [misjudged_iff, not_not] at judged

end AutoImport.Workspace
