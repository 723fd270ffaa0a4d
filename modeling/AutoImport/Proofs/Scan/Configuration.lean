import AutoImport.Package.Cache
import AutoImport.Proofs.Files.Change
import AutoImport.Scan.Walk

/-!
# Files that direct a scan

Ignore files decide which files a walk passes over, and manifests decide by which specifier the files of
a package are imported. A change that leaves these files alone leaves all such decisions alone, and what
is remembered of packages stays true.
-/

namespace AutoImport

open Component Ignore

/-- The names of ignore files and of the manifests of packages, as seen from their directories. -/
def configurationNames : List (List String) :=
  [[".ignore"], [".gitignore"], [".git", "info", "exclude"], ["package.json"]]

/-- Whether a location is that of an ignore file or of the manifest of a package. -/
def Location.IsConfiguration (location : Location) : Prop :=
  ∃ names ∈ configurationNames, names <:+ location

instance (location : Location) : Decidable location.IsConfiguration :=
  inferInstanceAs (Decidable (∃ names ∈ configurationNames, names <:+ location))

namespace FileTree

theorem content?_congr (tree : FileTree) {left right : Path} (same : left.Same right) :
    tree.content? left = tree.content? right := by
  unfold content? find? locate?
  rw [show left.components = right.components from same]

/-- In both trees all ignore files and manifests read alike. They may be links to other files. -/
def SameConfiguration (before after : FileTree) : Prop :=
  ∀ location : Location, (∀ name ∈ location, IsEntryName name) → location.IsConfiguration →
    after.content? (pathOf location) = before.content? (pathOf location)

/-- There are no links in a tree. -/
def IsLinkless (tree : FileTree) : Prop :=
  ∀ entry ∈ tree.entries, entry.2.isDirectory ∨ entry.2.isFile

instance (tree : FileTree) : Decidable tree.IsLinkless :=
  inferInstanceAs (Decidable (∀ entry ∈ tree.entries, entry.2.isDirectory ∨ entry.2.isFile))

theorem IsLinkless.node? {tree : FileTree} (linkless : tree.IsLinkless) {location : Location}
    {node : FileNode} (found : tree.node? location = some node) : node.isDirectory ∨ node.isFile := by
  by_cases empty : location = []
  · rw [empty, node?_nil] at found
    rw [← Option.some.inj found]
    exact .inl rfl
  · exact linkless _ (mem_of_node? empty found)

/-- Without links, a change of a file that is named otherwise leaves all ignore files and manifests as
they are. -/
theorem IsLinkless.sameConfiguration_withFile {tree : FileTree} {location : Location}
    {content? : Option FileContent} (linkless : tree.IsLinkless) (wellFormed : tree.WellFormed)
    (allowed : tree.AllowsFile location content?) (other : ¬location.IsConfiguration) :
    tree.SameConfiguration (tree.withFile location content?) := by
  have stillLinkless (place : Location) (node : FileNode)
      (found : (tree.withFile location content?).node? place = some node) :
      node.isDirectory ∨ node.isFile := by
    by_cases here : place = location
    · rw [here, allowed.node?_withFile_self] at found
      obtain ⟨content, -, rfl⟩ := Option.map_eq_some_iff.mp found
      exact .inr rfl
    · rcases allowed.node?_withFile_of_ne here with same | ⟨-, -, added⟩
      · exact linkless.node? (same ▸ found)
      · rw [← Option.some.inj (added.symm.trans found)]
        exact .inl rfl
  intro place named configured
  have apart : place ≠ location := fun here => other (here ▸ configured)
  have spells := Path.components_pathOf named
  rw [(wellFormed.withFile allowed).content?_eq_of_linkless spells stillLinkless,
    wellFormed.content?_eq_of_linkless spells fun _ _ => linkless.node?]
  rcases allowed.node?_withFile_of_ne apart with same | ⟨missing, -, added⟩
  · rw [same]
  · rw [missing, added]

theorem SameConfiguration.content?_join {before after : FileTree}
    (same : before.SameConfiguration after) {directory names : List String}
    (inDirectory : ∀ name ∈ directory, IsEntryName name) (configured : names ∈ configurationNames)
    {file : Path} (relative : file.isAbsolute = false)
    (spells : file.components = names.map Component.name) :
    after.content? ((pathOf directory).join file) = before.content? ((pathOf directory).join file) := by
  have named : ∀ name ∈ names, IsEntryName name := by
    have all : ∀ names ∈ configurationNames, ∀ name ∈ names, IsEntryName name := by
      decide
    exact all names configured
  have both : ∀ name ∈ directory ++ names, IsEntryName name := by
    intro name member
    rcases List.mem_append.mp member with outer | inner
    · exact inDirectory name outer
    · exact named name inner
  have joined : ((pathOf directory).join file).Same (pathOf (directory ++ names)) := by
    change Path.components _ = Path.components _
    rw [Path.components_pathOf_join_of_spells inDirectory relative spells, Path.components_pathOf both]
  rw [content?_congr _ joined, content?_congr _ joined]
  exact same _ both ⟨names, configured, List.suffix_append _ _⟩

end FileTree

/-! ## What a walk passes over -/

namespace Workspace

theorem mem_directoriesInside_iff {workspace : Workspace} {names : List String}
    {entry : Location × List String} :
    entry ∈ workspace.directoriesInside names ↔
      ∃ count < names.length, entry = (workspace.root ++ names.take count, names.drop count) := by
  rw [directoriesInside, List.mem_reverse, List.mem_map]
  simp only [List.mem_range, eq_comm]

theorem mem_directoriesOutside_iff {workspace : Workspace} {names : List String}
    {entry : Location × List String} :
    entry ∈ workspace.directoriesOutside names ↔
      ∃ count < workspace.root.length,
        entry = (workspace.root.take count, workspace.root.drop count ++ names) := by
  rw [directoriesOutside, List.mem_reverse, List.mem_map]
  simp only [List.mem_range, eq_comm]

/-- All directories whose ignore files are read for an entry lie on the way to it. -/
theorem prefix_of_mem_directoriesAbove {workspace : Workspace} {names : List String}
    {entry : Location × List String} (member : entry ∈ workspace.directoriesAbove names) :
    entry.1 <+: workspace.root ++ names := by
  rcases List.mem_append.mp member with inside | outside
  · obtain ⟨count, -, rfl⟩ := mem_directoriesInside_iff.mp inside
    exact List.prefix_append_right_inj workspace.root |>.mpr (List.take_prefix count names)
  · obtain ⟨count, -, rfl⟩ := mem_directoriesOutside_iff.mp outside
    exact (List.take_prefix count workspace.root).trans (List.prefix_append _ _)

/-- The ignore files of a directory are among those that direct a scan. -/
theorem spelling_of_ignoreFile {file : String}
    (ignores : file ∈ [".ignore", ".gitignore", ".git/info/exclude"]) :
    (Path.mk file).isAbsolute = false ∧
      ∃ names ∈ configurationNames, (Path.mk file).components = names.map Component.name := by
  have all : ∀ file ∈ [".ignore", ".gitignore", ".git/info/exclude"],
      (Path.mk file).isAbsolute = false ∧
        ∃ names ∈ configurationNames, (Path.mk file).components = names.map Component.name := by
    decide +kernel
  exact all file ignores

variable {before after : FileTree} (same : before.SameConfiguration after)
include same

/-- The ignore files of a directory have the same rules. -/
theorem rulesAt_congr {directory : Location} (inDirectory : ∀ name ∈ directory, IsEntryName name)
    {file : String} (ignores : file ∈ [".ignore", ".gitignore", ".git/info/exclude"]) :
    rulesAt after directory ⟨file⟩ = rulesAt before directory ⟨file⟩ := by
  obtain ⟨relative, names, configured, spells⟩ := spelling_of_ignoreFile ignores
  have reads := same.content?_join inDirectory configured relative spells
  unfold rulesAt
  rw [reads]

variable (workspace : Workspace) {names : List String}
  (named : ∀ name ∈ workspace.root ++ names, IsEntryName name) (isDirectory : Bool)
include named

theorem verdict_congr :
    workspace.verdict after names isDirectory = workspace.verdict before names isDirectory := by
  have kind {file : String} (ignores : file ∈ [".ignore", ".gitignore", ".git/info/exclude"]) :
      verdictOfKind after ⟨file⟩ (workspace.directoriesAbove names) isDirectory =
        verdictOfKind before ⟨file⟩ (workspace.directoriesAbove names) isDirectory := by
    unfold verdictOfKind
    refine congrArg Verdict.firstOf (List.map_congr_left fun entry member => ?_)
    have inDirectory : ∀ name ∈ entry.1, IsEntryName name := fun name inside =>
      named name ((prefix_of_mem_directoriesAbove member).subset inside)
    simp only [rulesAt_congr same inDirectory ignores]
  have ignore := kind (List.mem_cons_self)
  have gitignore := kind (List.mem_cons_of_mem _ List.mem_cons_self)
  have exclude := kind (List.mem_cons_of_mem _ (List.mem_cons_of_mem _ List.mem_cons_self))
  simp only [verdict, verdictAmong, ignore, gitignore, exclude]

/-- A walk gets to the same entries. -/
theorem reaches_congr :
    workspace.reaches after names isDirectory = workspace.reaches before names isDirectory := by
  have passes (count : Nat) (directory : Bool) :
      workspace.passesOver after (names.take count) directory =
        workspace.passesOver before (names.take count) directory := by
    have inside : ∀ name ∈ workspace.root ++ names.take count, IsEntryName name := by
      intro name member
      rcases List.mem_append.mp member with outer | inner
      · exact named name (List.mem_append_left _ outer)
      · exact named name (List.mem_append_right _ (List.mem_of_mem_take inner))
    simp only [passesOver, verdict_congr same workspace inside]
  simp only [reaches, passes]

end Workspace

/-! ## What is remembered of packages -/

theorem PackageFile.isEntryName_of_mem_directory {path : Path} {found : PackageFile}
    (inPackage : PackageFile.ofPath? path = some found) :
    ∀ name ∈ found.directory, IsEntryName name := by
  have names : ∀ name ∈ namesOf path, IsEntryName name := by
    intro name member
    obtain ⟨component, inside, read⟩ := List.mem_filterMap.mp member
    cases component <;> simp only [reduceCtorEq, Option.some.injEq] at read
    exact Path.isEntryName_of_mem_components (read ▸ inside)
  have inside : ∀ name ∈ ((namesOf path).reverse.takeWhile (· != modulesName)).reverse,
      IsEntryName name := fun name member =>
    names name (List.mem_reverse.mp
      ((List.takeWhile_sublist _).subset (List.mem_reverse.mp member)))
  intro name member
  simp only [ofPath?] at inPackage
  split at inPackage
  · simp at inPackage
  · split at inPackage
    · simp at inPackage
    · split at inPackage
      · simp at inPackage
      · rw [Option.some.injEq] at inPackage
        subst inPackage
        rcases List.mem_append.mp member with outer | inner
        · exact names name (List.mem_of_mem_take outer)
        · exact inside name (List.mem_of_mem_take inner)

namespace PackageCache

/-- All that is remembered is what the manifests say. -/
def Remembers (cache : PackageCache) (tree : FileTree) (root : Path) : Prop :=
  ∀ entry ∈ cache.known,
    (∀ name ∈ entry.1, IsEntryName name) ∧ entry.2 = readPackage? tree root entry.1

theorem empty_remembers (tree : FileTree) (root : Path) : empty.Remembers tree root := by
  simp [Remembers, empty]

theorem lookUp_of_remembers {cache : PackageCache} {tree : FileTree} {root : Path}
    (remembers : cache.Remembers tree root) {directory : List String}
    (named : ∀ name ∈ directory, IsEntryName name) :
    (cache.lookUp tree root directory).1 = readPackage? tree root directory ∧
      (cache.lookUp tree root directory).2.Remembers tree root := by
  rw [lookUp]
  cases known : cache.known.lookup directory with
  | some package? =>
      obtain ⟨front, back, split, -⟩ := List.lookup_eq_some_iff.mp known
      exact ⟨(remembers (directory, package?) (by simp [split])).2, remembers⟩
  | none =>
      refine ⟨rfl, fun entry member => ?_⟩
      rcases List.mem_cons.mp member with rfl | old
      · exact ⟨named, rfl⟩
      · exact remembers entry old

/-- The specifier of a file as the manifests give it now. -/
def currentSpecifier? (tree : FileTree) (root path : Path) : Option String :=
  (PackageFile.ofPath? path).bind fun found =>
    (readPackage? tree root found.directory).map (·.specifier found.subPath)

/-- As long as the memory is true, the specifier of a file is the current one. -/
theorem specifierFor_of_remembers {cache : PackageCache} {tree : FileTree} {root : Path}
    (remembers : cache.Remembers tree root) (path : Path) :
    (cache.specifierFor tree root path).1 = currentSpecifier? tree root path ∧
      (cache.specifierFor tree root path).2.Remembers tree root := by
  rw [specifierFor, currentSpecifier?]
  cases inPackage : PackageFile.ofPath? path with
  | none => exact ⟨rfl, remembers⟩
  | some found =>
      obtain ⟨current, still⟩ :=
        lookUp_of_remembers remembers (PackageFile.isEntryName_of_mem_directory inPackage)
      simp only [Option.bind_some, ← current]
      exact ⟨trivial, still⟩

section Same

variable {before after : FileTree} (same : before.SameConfiguration after) {root : Location}
  (rootNamed : ∀ name ∈ root, IsEntryName name)
include same rootNamed

theorem readPackage?_congr {directory : List String} (named : ∀ name ∈ directory, IsEntryName name) :
    readPackage? after (FileTree.pathOf root) directory =
      readPackage? before (FileTree.pathOf root) directory := by
  have all : ∀ name ∈ directory ++ ["package.json"], IsEntryName name := by
    intro name member
    rcases List.mem_append.mp member with outer | inner
    · exact named name outer
    · rw [List.mem_singleton.mp inner]
      decide
  have both : ∀ name ∈ root ++ (directory ++ ["package.json"]), IsEntryName name := by
    intro name member
    rcases List.mem_append.mp member with outer | inner
    · exact rootNamed name outer
    · exact all name inner
  have shape : Path.ofComponents (directory.map Component.name ++ [.name "package.json"]) =
      Path.ofNames (directory ++ ["package.json"]) := by
    rw [Path.ofNames, List.map_append, List.map_singleton]
  have joined : ((FileTree.pathOf root).join (Path.ofNames (directory ++ ["package.json"]))).Same
      (FileTree.pathOf (root ++ (directory ++ ["package.json"]))) := by
    change Path.components _ = Path.components _
    rw [Path.components_pathOf_join rootNamed all, Path.components_pathOf both]
  have configured : Location.IsConfiguration (root ++ (directory ++ ["package.json"])) :=
    ⟨["package.json"], by decide, List.append_assoc root directory _ ▸ List.suffix_append _ _⟩
  have reads := same _ both configured
  rw [← FileTree.content?_congr _ joined, ← FileTree.content?_congr _ joined] at reads
  simp only [readPackage?, shape, reads]

theorem currentSpecifier?_congr (path : Path) :
    currentSpecifier? after (FileTree.pathOf root) path =
      currentSpecifier? before (FileTree.pathOf root) path := by
  unfold currentSpecifier?
  refine Option.bind_congr fun found inPackage => ?_
  have current := readPackage?_congr same rootNamed (PackageFile.isEntryName_of_mem_directory inPackage)
  simp only [current]

theorem Remembers.congr {cache : PackageCache}
    (remembers : cache.Remembers before (FileTree.pathOf root)) :
    cache.Remembers after (FileTree.pathOf root) := by
  intro entry member
  obtain ⟨named, current⟩ := remembers entry member
  exact ⟨named, current.trans (readPackage?_congr same rootNamed named).symm⟩

end Same

end PackageCache

end AutoImport
