import AutoImport.Indexer.Update
import AutoImport.Proofs.Indexer.Scan

/-!
# What an update of one file leaves behind

After one file was written or deleted, an index is up to date but for that file. Reading the file again
brings the index up to date, so it comes to hold what a full scan would find.
-/

namespace AutoImport

open Component

namespace Workspace

/-! ## Paths that lead to a file -/

/-- A path leads to a location: it spells the names on the way from the root of all directories, up to
`.` and `..`, or it is followed there from outside of the workspace. -/
def LeadsTo (workspace : Workspace) (tree : FileTree) (path : Path) (location : Location) : Prop :=
  let absolute := (workspace.rootPath.join path).normalize
  absolute = FileTree.pathOf location ∨
    (absolute.below? workspace.rootPath = none ∧
      resolve? tree absolute = some (FileTree.pathOf location))

instance (workspace : Workspace) (tree : FileTree) (path : Path) (location : Location) :
    Decidable (workspace.LeadsTo tree path location) :=
  inferInstanceAs (Decidable (_ ∨ _))

theorem resolve?_pathOf_of_file {tree : FileTree} (wellFormed : tree.WellFormed)
    {location : Location} {content : FileContent}
    (there : tree.node? location = some (.file content)) :
    resolve? tree (FileTree.pathOf location) = some (FileTree.pathOf location) := by
  have present : (tree.node? location).isSome := by
    rw [there]
    rfl
  have named := wellFormed.isEntryName present
  have located := wellFormed.locate?_eq_some (Path.components_pathOf named) there (.inr rfl)
  rw [resolve?, located]

theorem resolve?_pathOf_of_missing {tree : FileTree} (wellFormed : tree.WellFormed)
    {location : Location} (nonempty : location ≠ []) (all : ∀ name ∈ location, IsEntryName name)
    (inDirectory : tree.node? location.dropLast = some .directory)
    (gone : tree.node? location = none) :
    resolve? tree (FileTree.pathOf location) = some (FileTree.pathOf location) := by
  obtain ⟨directory, name, rfl⟩ : ∃ directory name, location = directory ++ [name] :=
    ⟨_, _, (List.dropLast_concat_getLast nonempty).symm⟩
  rw [List.dropLast_concat] at inDirectory
  have present : (tree.node? directory).isSome := by
    rw [inDirectory]
    rfl
  have directoryNamed := wellFormed.isEntryName present
  have named : IsEntryName name := all name (by simp)
  have free : ∀ above, above <+: directory ++ [name] → above ≠ directory ++ [name] → ∀ node,
      tree.node? above = some node → node.isDirectory ∨ node.isFile := by
    intro above begins apart node found
    have within : above <+: directory := (List.prefix_concat_iff.mp begins).resolve_left apart
    obtain ⟨rest, rfl⟩ := within
    left
    by_cases empty : rest = []
    · rw [empty, List.append_nil, found] at inDirectory
      rw [Option.some.inj inDirectory]
      rfl
    · rw [wellFormed.directory_above empty present] at found
      rw [← Option.some.inj found]
      rfl
  have missing := FileTree.locate?_eq_none (Path.components_pathOf all) (by simp) gone free
  have located := wellFormed.locate?_eq_some (Path.components_pathOf directoryNamed) inDirectory (.inl rfl)
  rw [resolve?, missing, Path.parent?_pathOf directoryNamed named]
  simp only [Option.bind_eq_bind, Option.bind_some, located,
    Path.fileName?_pathOf directoryNamed named, Path.pathOf_join_name directoryNamed named]

/-- Where a path leads to decides how it is seen from the root of a workspace. -/
theorem LeadsTo.relativize?_eq {workspace : Workspace} {tree : FileTree} {path : Path}
    {location : Location} (leads : workspace.LeadsTo tree path location)
    (resolves : resolve? tree (FileTree.pathOf location) = some (FileTree.pathOf location)) :
    workspace.relativize? tree path = (FileTree.pathOf location).below? workspace.rootPath := by
  rw [relativize?]
  rcases leads with direct | ⟨outside, followed⟩
  · simp only [direct, resolves, Option.bind_some, Option.or_self]
  · simp only [outside, followed, Option.bind_some, Option.none_or]

/-! ## The symbols of the other files -/

/-- A file that reads as before has the symbols that it had. -/
theorem symbolsOf_congr {workspace : Workspace} {before after : FileTree}
    (rootNamed : ∀ name ∈ workspace.root, IsEntryName name) (same : before.SameConfiguration after)
    {path : Path}
    (reads : after.content? (workspace.rootPath.join path) =
      before.content? (workspace.rootPath.join path)) :
    workspace.symbolsOf after path = workspace.symbolsOf before path := by
  have exports : Indexer.exportsOfFile after workspace path =
      Indexer.exportsOfFile before workspace path := by
    unfold Indexer.exportsOfFile
    simp only [reads]
  have specifier := PackageCache.currentSpecifier?_congr same rootNamed path
  unfold symbolsOf
  rw [exports]
  simp only [rootPath, specifier]

/-- After a change of one file, the path of that file still leads to where it was spelled. -/
theorem resolve?_pathOf_withFile {tree : FileTree} {location : Location} {content? : Option FileContent}
    (wellFormed : tree.WellFormed) (allowed : tree.AllowsFile location content?) :
    resolve? (tree.withFile location content?) (FileTree.pathOf location) =
      some (FileTree.pathOf location) := by
  have still := wellFormed.withFile allowed
  have self := allowed.node?_withFile_self
  cases content? with
  | some content => exact resolve?_pathOf_of_file still self
  | none =>
      have inDirectory : tree.node? location.dropLast = some .directory := by
        have present := allowed.present rfl
        rw [← List.dropLast_concat_getLast allowed.nonempty] at present
        exact wellFormed.directory_above (by simp) present
      have apart : location.dropLast ≠ location := by
        intro same
        have shorter := congrArg List.length same
        have positive := List.length_pos_iff.mpr allowed.nonempty
        rw [List.length_dropLast] at shorter
        omega
      have stays : (tree.withFile location none).node? location.dropLast = some .directory := by
        rw [FileTree.node?_withFile_none tree allowed.nonempty, if_neg apart, inDirectory]
      exact resolve?_pathOf_of_missing still allowed.nonempty allowed.named stays self

end Workspace

namespace Indexer

/-- The index holds the symbols of the files that a walk finds, perhaps but for the one at a location. -/
structure UpToDateBut (tree : FileTree) (location : Location) (indexer : Indexer) : Prop
    extends Orderly tree indexer where
  found : ∀ names, indexer.workspace.root ++ names ≠ location → indexer.workspace.Finds tree names →
    indexer.index.symbolsInFile (Path.ofNames names) =
      indexer.workspace.symbolsOf tree (Path.ofNames names)
  others : ∀ path : Path,
    (∀ names, indexer.workspace.root ++ names = location ∨ indexer.workspace.Finds tree names →
      ¬path.Same (Path.ofNames names)) → indexer.index.symbolsInFile path = []

section Change

variable {tree : FileTree} {location : Location} {content? : Option FileContent} {indexer : Indexer}

/-- A change of one file leaves an index up to date but for this file. -/
theorem UpToDate.withFile (upToDate : indexer.UpToDate tree) (wellFormed : tree.WellFormed)
    (rootNamed : ∀ name ∈ indexer.workspace.root, IsEntryName name)
    (allowed : tree.AllowsFile location content?)
    (same : tree.SameConfiguration (tree.withFile location content?)) :
    indexer.UpToDateBut (tree.withFile location content?) location := by
  refine ⟨⟨upToDate.history, upToDate.remembers.congr same rootNamed⟩, ?_, ?_⟩
  · intro names apart found
    have foundBefore := (Workspace.finds_withFile_iff wellFormed allowed same apart).mp found
    obtain ⟨content, there⟩ := foundBefore.present
    have thereAfter := (allowed.file_withFile_of_ne apart content).mpr there
    have spells := Path.components_pathOf_join rootNamed (foundBefore.isEntryName wellFormed)
    rw [upToDate.found names foundBefore]
    refine (Workspace.symbolsOf_congr rootNamed same ?_).symm
    rw [Workspace.rootPath, wellFormed.content?_eq_some spells there,
      (wellFormed.withFile allowed).content?_eq_some spells thereAfter]
  · intro path apart
    refine upToDate.others path fun names found => ?_
    by_cases here : indexer.workspace.root ++ names = location
    · exact apart names (.inl here)
    · exact apart names (.inr ((Workspace.finds_withFile_iff wellFormed allowed same here).mpr found))

end Change

/-- An index is up to date when the file that was left out has been read again. -/
theorem UpToDateBut.upToDate {tree : FileTree} {location : Location} {indexer next : Indexer}
    (but : indexer.UpToDateBut tree location) (wellFormed : tree.WellFormed) {names : List String}
    (named : ∀ name ∈ names, IsEntryName name) (here : indexer.workspace.root ++ names = location)
    (orderly : next.Orderly tree) (sameWorkspace : next.workspace = indexer.workspace)
    {symbols : List ExportedSymbol}
    (read : ∀ other, next.index.symbolsInFile other =
      if other.Same (Path.ofNames names) then symbols else indexer.index.symbolsInFile other)
    (ofFound : indexer.workspace.Finds tree names →
      symbols = indexer.workspace.symbolsOf tree (Path.ofNames names))
    (ofMissed : ¬indexer.workspace.Finds tree names → symbols = []) : next.UpToDate tree := by
  refine ⟨orderly, fun others found => ?_, fun path apart => ?_⟩
  · rw [sameWorkspace] at found ⊢
    rw [read]
    by_cases equal : others = names
    · subst equal
      rw [if_pos (Path.Same.refl _), ofFound found]
    · have differs : ¬(Path.ofNames others).Same (Path.ofNames names) := fun same =>
        equal (Workspace.names_eq_of_same (found.isEntryName wellFormed) named same)
      rw [if_neg differs]
      refine but.found others (fun there => equal ?_) found
      exact List.append_cancel_left (there.trans here.symm)
  · rw [sameWorkspace] at apart
    rw [read]
    split_ifs with same
    · exact ofMissed fun found => apart names found same
    · refine but.others path fun others either => ?_
      rcases either with there | found
      · obtain rfl := List.append_cancel_left (there.trans here.symm)
        exact same
      · exact apart others found

/-- When the file lies outside of the workspace there is nothing to do. -/
theorem UpToDateBut.upToDate_of_outside {tree : FileTree} {location : Location} {indexer : Indexer}
    (but : indexer.UpToDateBut tree location) (outside : ¬indexer.workspace.root <+: location) :
    indexer.UpToDate tree := by
  have apart (names : List String) : indexer.workspace.root ++ names ≠ location :=
    fun there => outside ⟨names, there⟩
  refine ⟨but.toOrderly, fun names found => but.found names (apart names) found, fun path others => ?_⟩
  exact but.others path fun names either => others names (either.resolve_left (apart names))

/-! ## Reading the file again -/

/-- An update commits a file that is there and accepted, and removes another one. -/
theorem updateFile_snd (tree : FileTree) (path : Path) (indexer : Indexer) :
    (indexer.updateFile tree path).2 =
      if tree.isFile (indexer.workspace.rootPath.join path) && indexer.workspace.accepts tree path then
        (indexer.commit tree path).2
      else indexer.removeFile path := by
  unfold Indexer.updateFile
  split
  · rcases indexer.commit tree path with ⟨_ | _, next⟩ <;> rfl
  · rfl

theorem updateFile_workspace (tree : FileTree) (path : Path) (indexer : Indexer) :
    (indexer.updateFile tree path).2.workspace = indexer.workspace := by
  rw [updateFile_snd]
  split
  · exact (commit_frame tree indexer path).1
  · rfl

theorem scanFile_snd {tree : FileTree} {path relative : Path} {indexer : Indexer}
    (seen : indexer.workspace.relativize? tree path = some relative) :
    (indexer.scanFile tree path).2 =
      ((indexer.announce (.updating relative)).updateFile tree relative).2.endUpdate indexer.status := by
  unfold Indexer.scanFile
  rw [seen]

/-- A file that is not accepted has no symbols after it was read again. -/
theorem index_scanFile_of_not_accepts {tree : FileTree} {path relative : Path} {indexer : Indexer}
    (seen : indexer.workspace.relativize? tree path = some relative)
    (unaccepted : indexer.workspace.accepts tree relative = false) :
    (indexer.scanFile tree path).2.index = indexer.index.removeFile relative := by
  have passed : (tree.isFile ((indexer.announce (.updating relative)).workspace.rootPath.join relative)
      && (indexer.announce (.updating relative)).workspace.accepts tree relative) = false :=
    Bool.and_eq_false_iff.mpr (.inr unaccepted)
  rw [scanFile_snd seen, updateFile_snd, if_neg (by rw [passed]; exact Bool.false_ne_true)]
  rfl

section Step

variable {tree : FileTree} {location : Location} {content? : Option FileContent} {indexer : Indexer}
  (wellFormed : tree.WellFormed) (allowed : tree.AllowsFile location content?)
include wellFormed allowed

/-- An update reads the file that was changed exactly when a walk finds it. -/
theorem reads_iff_finds {names : List String} (here : indexer.workspace.root ++ names = location)
    (agreed : indexer.workspace.AcceptsFound (tree.withFile location content?)) :
    ((tree.withFile location content?).isFile
          (indexer.workspace.rootPath.join (Path.ofNames names)) = true ∧
        indexer.workspace.accepts (tree.withFile location content?) (Path.ofNames names) = true) ↔
      indexer.workspace.Finds (tree.withFile location content?) names := by
  have still := wellFormed.withFile allowed
  have self := allowed.node?_withFile_self
  have inWorkspace : ∀ name ∈ indexer.workspace.root ++ names, IsEntryName name := here ▸ allowed.named
  have spells := Path.components_pathOf_join
    (fun name member => inWorkspace name (List.mem_append_left _ member))
    (fun name member => inWorkspace name (List.mem_append_right _ member))
  rw [here] at spells
  have free : ∀ directory, directory <+: location → directory ≠ location → ∀ node,
      (tree.withFile location content?).node? directory = some node →
        node.isDirectory ∨ node.isFile := by
    intro directory above apart node found
    rw [allowed.above_withFile above apart found]
    exact .inl rfl
  generalize tree.withFile location content? = after at *
  constructor
  · rintro ⟨isFile, accepts⟩
    cases content? with
    | none =>
        rw [Workspace.rootPath, FileTree.isFile_eq_false spells allowed.nonempty self free] at isFile
        simp at isFile
    | some content => exact (agreed.accepts_iff still (here ▸ self)).mp accepts
  · intro found
    obtain ⟨content, there⟩ := found.present
    exact ⟨still.isFile_eq_true spells (here ▸ there), (agreed.accepts_iff still there).mpr found⟩

/-- An update of the file that was left out makes up for it. -/
theorem UpToDateBut.updateFile {names : List String}
    (but : indexer.UpToDateBut (tree.withFile location content?) location)
    (here : indexer.workspace.root ++ names = location)
    (agreed : indexer.workspace.AcceptsFound (tree.withFile location content?)) :
    (indexer.updateFile (tree.withFile location content?) (Path.ofNames names)).2.UpToDate
      (tree.withFile location content?) := by
  have still := wellFormed.withFile allowed
  have named : ∀ name ∈ names, IsEntryName name := fun name member =>
    allowed.named name (here ▸ List.mem_append_right _ member)
  have reads_iff := reads_iff_finds wellFormed allowed here agreed
  rw [updateFile_snd]
  split
  · rename_i reads
    rw [Bool.and_eq_true] at reads
    exact but.upToDate still named here (but.toOrderly.commit _)
      (commit_frame _ _ _).1 (symbolsInFile_commit _ but.toOrderly) (fun _ => rfl)
      fun missed => absurd (reads_iff.mp reads) missed
  · rename_i unread
    rw [Bool.and_eq_true] at unread
    exact but.upToDate still named here (but.toOrderly.removeFile _) rfl
      (SymbolIndex.symbolsInFile_removeFile but.filed _)
      (fun found => absurd (reads_iff.mpr found) unread) fun _ => rfl

/-- When a file is changed and then read again, an index that was up to date is up to date again. -/
theorem UpToDate.scanFile (upToDate : indexer.UpToDate tree) (ready : indexer.status = .ready)
    (rootNamed : ∀ name ∈ indexer.workspace.root, IsEntryName name)
    (same : tree.SameConfiguration (tree.withFile location content?))
    (agreed : indexer.workspace.AcceptsFound (tree.withFile location content?)) {path : Path}
    (leads : indexer.workspace.LeadsTo (tree.withFile location content?) path location) :
    let next := (indexer.scanFile (tree.withFile location content?) path).2
    next.UpToDate (tree.withFile location content?) ∧ next.status = .ready ∧
      next.workspace = indexer.workspace := by
  have resolves := Workspace.resolve?_pathOf_withFile wellFormed allowed
  have but := upToDate.withFile wellFormed rootNamed allowed same
  have seen := leads.relativize?_eq resolves
  by_cases inside : indexer.workspace.root <+: location
  · obtain ⟨names, rfl⟩ := inside
    have named : ∀ name ∈ names, IsEntryName name := fun name member =>
      allowed.named name (List.mem_append_right _ member)
    rw [Workspace.rootPath, Path.below?_pathOf rootNamed named] at seen
    have announced : (indexer.announce (.updating (Path.ofNames names))).UpToDateBut
        (tree.withFile (indexer.workspace.root ++ names) content?) (indexer.workspace.root ++ names) :=
      ⟨⟨but.history, but.remembers⟩, but.found, but.others⟩
    have updated := announced.updateFile wellFormed allowed rfl agreed
    have frame := updateFile_workspace (tree.withFile (indexer.workspace.root ++ names) content?)
      (Path.ofNames names) (indexer.announce (.updating (Path.ofNames names)))
    rw [scanFile_snd seen, ready]
    generalize ((indexer.announce _).updateFile _ _).2 = next at updated frame
    exact ⟨updated.of_index_eq rfl rfl rfl, rfl, frame⟩
  · rw [Workspace.rootPath, Path.below?_eq_none allowed.named rootNamed inside] at seen
    simp only [Indexer.scanFile, seen]
    exact ⟨but.upToDate_of_outside inside, ready, trivial⟩

end Step

end Indexer

end AutoImport
