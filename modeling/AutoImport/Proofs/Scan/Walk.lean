import AutoImport.Proofs.Scan.Configuration

/-!
# The files that a walk finds

A walk through a well-formed tree finds the files that it gets to and that the patterns of the workspace
accept. Whether it finds a file depends on no other file than those that direct the scan.
-/

namespace AutoImport.Workspace

open Component

/-- A walk finds the file with the given names below the root. -/
structure Finds (workspace : Workspace) (tree : FileTree) (names : List String) : Prop where
  present : ∃ content, tree.node? (workspace.root ++ names) = some (.file content)
  reached : workspace.reaches tree names false = true
  accepted : workspace.filter.accepts (Path.ofNames names) = true

theorem Finds.isEntryName {workspace : Workspace} {tree : FileTree} {names : List String}
    (found : workspace.Finds tree names) (wellFormed : tree.WellFormed) :
    ∀ name ∈ names, IsEntryName name := by
  obtain ⟨content, there⟩ := found.present
  intro name member
  exact wellFormed.isEntryName (by rw [there]; rfl) name (List.mem_append_right _ member)

/-- A walk reads off each entry of the tree whether it is a file to be found. -/
theorem exists_read (workspace : Workspace) (tree : FileTree) :
    ∃ read : Location × FileNode → Option Path,
      workspace.collect tree = (tree.entries.filterMap read).mergeSort
        (fun left right => left.compare right != .gt) ∧
      ∀ entry path, read entry = some path ↔
        ∃ names, entry.1 = workspace.root ++ names ∧ entry.2.isFile = true ∧
          workspace.reaches tree names false = true ∧
          workspace.filter.accepts (Path.ofNames names) = true ∧ path = Path.ofNames names := by
  refine ⟨_, rfl, ?_⟩
  rintro ⟨location, node⟩ path
  constructor
  · intro read
    simp only at read
    split at read
    · simp at read
    · rename_i names below
      split at read
      · rename_i holds
        simp only [Bool.and_eq_true] at holds
        exact ⟨names, Path.dropStart?_eq_some_iff.mp below, holds.1.1, holds.1.2, holds.2,
          (Option.some.inj read).symm⟩
      · simp at read
  · rintro ⟨names, rfl, isFile, reached, accepted, rfl⟩
    have below : Path.dropStart? workspace.root (workspace.root ++ names) = some names :=
      Path.dropStart?_eq_some_iff.mpr rfl
    have accepted' : workspace.filter.accepts (Path.ofComponents (names.map Component.name)) = true :=
      accepted
    simp only [below, reached, accepted', isFile, Bool.and_self, reduceIte]
    rfl

theorem mem_collect {workspace : Workspace} {tree : FileTree} (wellFormed : tree.WellFormed)
    {path : Path} :
    path ∈ workspace.collect tree ↔ ∃ names, workspace.Finds tree names ∧ path = Path.ofNames names := by
  obtain ⟨read, same, reads⟩ := exists_read workspace tree
  rw [same, List.mem_mergeSort, List.mem_filterMap]
  constructor
  · rintro ⟨⟨location, node⟩, member, found⟩
    obtain ⟨names, rfl, isFile, reached, accepted, rfl⟩ := (reads _ _).mp found
    refine ⟨names, ⟨?_, reached, accepted⟩, rfl⟩
    cases node with
    | file content => exact ⟨content, wellFormed.node?_of_mem member⟩
    | directory => simp [FileNode.isFile] at isFile
    | link => simp [FileNode.isFile] at isFile
  · rintro ⟨names, ⟨⟨content, there⟩, reached, accepted⟩, rfl⟩
    have nonempty : workspace.root ++ names ≠ [] := by
      intro empty
      simp [empty] at there
    refine ⟨(workspace.root ++ names, .file content), FileTree.mem_of_node? nonempty there, ?_⟩
    exact (reads _ _).mpr ⟨names, rfl, rfl, reached, accepted, rfl⟩

theorem Finds.mem_collect {workspace : Workspace} {tree : FileTree} {names : List String}
    (found : workspace.Finds tree names) (wellFormed : tree.WellFormed) :
    Path.ofNames names ∈ workspace.collect tree :=
  (Workspace.mem_collect wellFormed).mpr ⟨names, found, rfl⟩

theorem names_eq_of_same {names others : List String} (named : ∀ name ∈ names, IsEntryName name)
    (othersNamed : ∀ name ∈ others, IsEntryName name)
    (same : (Path.ofNames names).Same (Path.ofNames others)) : names = others := by
  have components : (Path.ofNames names).components = (Path.ofNames others).components := same
  rw [Path.components_ofNames named, Path.components_ofNames othersNamed] at components
  exact (List.map_inj_right fun _ _ => Component.name.inj).mp components

/-- A walk finds each file once. -/
theorem collect_distinct {workspace : Workspace} {tree : FileTree} (wellFormed : tree.WellFormed) :
    (workspace.collect tree).Pairwise fun left right => ¬left.Same right := by
  obtain ⟨read, same, reads⟩ := exists_read workspace tree
  have named {location : Location} {node : FileNode} {names : List String}
      (member : (location, node) ∈ tree.entries) (placed : location = workspace.root ++ names) :
      ∀ name ∈ names, IsEntryName name := by
    intro name inside
    apply wellFormed.named _ member
    rw [placed]
    exact List.mem_append_right _ inside
  rw [same]
  refine (List.mergeSort_perm _ _).symm.pairwise ?_ fun {_ _} apart same => apart same.symm
  rw [List.pairwise_filterMap]
  apply (List.pairwise_map.mp wellFormed.distinct).imp_of_mem
  intro left right leftMember rightMember apart path leftRead other rightRead same
  obtain ⟨names, leftAt, -, -, -, rfl⟩ := (reads _ _).mp leftRead
  obtain ⟨others, rightAt, -, -, -, rfl⟩ := (reads _ _).mp rightRead
  rw [names_eq_of_same (named leftMember leftAt) (named rightMember rightAt) same] at leftAt
  exact apart (leftAt.trans rightAt.symm)

theorem finds_of_mem_collect {workspace : Workspace} {tree : FileTree} (wellFormed : tree.WellFormed)
    {names : List String} (named : ∀ name ∈ names, IsEntryName name)
    (member : Path.ofNames names ∈ workspace.collect tree) : workspace.Finds tree names := by
  obtain ⟨others, found, equal⟩ := (Workspace.mem_collect wellFormed).mp member
  obtain rfl := names_eq_of_same named (found.isEntryName wellFormed) (congrArg Path.components equal)
  exact found

/-- Of every file below the root it is told without walking whether a walk finds it. -/
def AcceptsFound (workspace : Workspace) (tree : FileTree) : Prop :=
  ∀ names content, tree.node? (workspace.root ++ names) = some (.file content) →
    (workspace.accepts tree (Path.ofNames names) = true ↔
      Path.ofNames names ∈ workspace.collect tree)

/-- It is enough to look at the entries of the tree. -/
theorem acceptsFound_of_entries {workspace : Workspace} {tree : FileTree}
    (wellFormed : tree.WellFormed)
    (agreed : ∀ entry ∈ tree.entries, ∀ names ∈ Path.dropStart? workspace.root entry.1,
      entry.2.isFile → workspace.accepts tree (Path.ofNames names) =
        (workspace.reaches tree names false && workspace.filter.accepts (Path.ofNames names))) :
    workspace.AcceptsFound tree := by
  intro names content there
  have nonempty : workspace.root ++ names ≠ [] := by
    intro empty
    simp [empty] at there
  have named : ∀ name ∈ names, IsEntryName name := fun name member =>
    wellFormed.isEntryName (by rw [there]; rfl) name (List.mem_append_right _ member)
  have told := agreed _ (FileTree.mem_of_node? nonempty there) names
    (Path.dropStart?_eq_some_iff.mpr rfl) rfl
  rw [told, Bool.and_eq_true]
  constructor
  · rintro ⟨reached, accepted⟩
    exact (Finds.mk ⟨content, there⟩ reached accepted).mem_collect wellFormed
  · intro member
    have found := finds_of_mem_collect wellFormed named member
    exact ⟨found.reached, found.accepted⟩

theorem AcceptsFound.accepts_iff {workspace : Workspace} {tree : FileTree}
    (agreed : workspace.AcceptsFound tree) (wellFormed : tree.WellFormed) {names : List String}
    {content : FileContent} (there : tree.node? (workspace.root ++ names) = some (.file content)) :
    workspace.accepts tree (Path.ofNames names) = true ↔ workspace.Finds tree names := by
  have named : ∀ name ∈ names, IsEntryName name := fun name member =>
    wellFormed.isEntryName (by rw [there]; rfl) name (List.mem_append_right _ member)
  rw [agreed names content there]
  exact ⟨finds_of_mem_collect wellFormed named, fun found => found.mem_collect wellFormed⟩

/-- A change of one file that leaves the configuration alone does not touch whether another file is
found. -/
theorem finds_withFile_iff {workspace : Workspace} {tree : FileTree} {location : Location}
    {content? : Option FileContent} (wellFormed : tree.WellFormed)
    (allowed : tree.AllowsFile location content?)
    (same : tree.SameConfiguration (tree.withFile location content?)) {names : List String}
    (apart : workspace.root ++ names ≠ location) :
    workspace.Finds (tree.withFile location content?) names ↔ workspace.Finds tree names := by
  have present : (∃ content,
      (tree.withFile location content?).node? (workspace.root ++ names) = some (.file content)) ↔
        ∃ content, tree.node? (workspace.root ++ names) = some (.file content) :=
    exists_congr fun content => allowed.file_withFile_of_ne apart content
  have named (there : ∃ content, tree.node? (workspace.root ++ names) = some (.file content)) :
      ∀ name ∈ workspace.root ++ names, IsEntryName name := by
    obtain ⟨content, found⟩ := there
    exact wellFormed.isEntryName (by rw [found]; rfl)
  constructor
  · rintro ⟨there, reached, accepted⟩
    have before := present.mp there
    exact ⟨before, reaches_congr same workspace (named before) false ▸ reached, accepted⟩
  · rintro ⟨there, reached, accepted⟩
    refine ⟨present.mpr there, ?_, accepted⟩
    rw [reaches_congr same workspace (named there), reached]

end AutoImport.Workspace
