import AutoImport.Indexer.Update
import AutoImport.Proofs.Files.Walk
import AutoImport.Proofs.Path.Route
import AutoImport.Proofs.Symbol.Answers

/-!
# The spellings of one file

A file of a workspace can be named from the root of the workspace, by its whole path, or through a link
that leads to the root, each with detours. All of these spellings are brought into one form, whether the
file is there or not. A spelling through a link is not, once the directory of the file is gone as well:
it is then taken for a path that leads out of the workspace.
-/

namespace AutoImport

open Component

/-! ## One form for each file -/

namespace Path

theorem exists_of_below? {directory relative : Path} {steps : List Component}
    (absolute : directory.isAbsolute = true) (all : ∀ step ∈ steps, step.IsStep)
    (below : (ofComponents (.root :: steps)).below? directory = some relative) :
    ∃ front rest, directory.components = .root :: front ∧ steps = front ++ rest ∧
      relative = ofComponents rest := by
  rcases exists_steps_of_absolute absolute with ⟨front, spelled, -⟩
  have within : (ofComponents (.root :: steps)).isWithin directory = true := by
    by_contra outside
    rw [below?, if_neg outside] at below
    simp at below
  rw [isWithin_iff, spelled, components_ofComponents_root all] at within
  rcases within with ⟨rest, split⟩
  rw [List.cons_append, List.cons.injEq] at split
  obtain rfl := split.2
  rw [below?_ofComponents spelled all] at below
  exact ⟨front, rest, spelled, rfl, (Option.some.inj below).symm⟩

theorem isAbsolute_join {base : Path} (absolute : base.isAbsolute = true) (path : Path) :
    (base.join path).isAbsolute = true := by
  cases own : path.isAbsolute with
  | true => rwa [join_of_absolute base own]
  | false =>
      rcases exists_steps_of_absolute absolute with ⟨steps, spelled, -⟩
      exact isAbsolute_of_components (components_join_of_relative spelled own)

end Path

namespace Workspace

theorem isAbsolute_rootPath (workspace : Workspace) : workspace.rootPath.isAbsolute = true := by
  rw [rootPath, Path.isAbsolute, Path.pathOf_spelling]
  rfl

theorem exists_location_of_resolve? {tree : FileTree} {path resolved : Path}
    (resolves : resolve? tree path = some resolved) :
    ∃ location, resolved = FileTree.pathOf location ∧ ∀ name ∈ location, IsEntryName name := by
  unfold resolve? at resolves
  split at resolves
  · rename_i location located
    exact ⟨location, (Option.some.inj resolves).symm, FileTree.isEntryName_of_locate? located⟩
  · simp only [Option.bind_eq_bind, Option.bind_eq_some_iff] at resolves
    rcases resolves with ⟨parent, -, directory, located, name, ends, same⟩
    have inDirectory := FileTree.isEntryName_of_locate? located
    have named : IsEntryName name := by
      unfold Path.fileName? at ends
      split at ends
      · rename_i text last
        rw [← Option.some.inj ends]
        exact Path.isEntryName_of_mem_components (List.mem_of_getLast? last)
      · simp at ends
    refine ⟨directory ++ [name], ?_, ?_⟩
    · rw [← Option.some.inj same, Path.pathOf_join_name inDirectory named]
    · exact List.forall_mem_append.mpr ⟨inDirectory, List.forall_mem_singleton.mpr named⟩

/-- A path that leads into the workspace is seen as the rest of a normal form behind the root. -/
theorem exists_of_relativize? {workspace : Workspace} {tree : FileTree} {path relative : Path}
    (seen : workspace.relativize? tree path = some relative) :
    ∃ front rest, workspace.rootPath.components = .root :: front ∧
      (∀ step ∈ front ++ rest, step.IsStep) ∧ Path.IsNormal (.root :: (front ++ rest)) ∧
      relative = Path.ofComponents rest := by
  have rootAbsolute := workspace.isAbsolute_rootPath
  rw [relativize?, Option.or_eq_some_iff] at seen
  rcases seen with direct | ⟨-, followed⟩
  · rcases Path.exists_normalizeComponents_eq (workspace.rootPath.join path) with ⟨steps, normal, all⟩
    rw [Path.isAbsolute_join rootAbsolute path] at normal
    have isNormal := Path.isNormal_normalizeComponents (workspace.rootPath.join path).components
    rw [normal] at isNormal
    rw [Path.normalize, normal] at direct
    rcases Path.exists_of_below? rootAbsolute all direct with ⟨front, rest, spelled, rfl, same⟩
    exact ⟨front, rest, spelled, all, isNormal, same⟩
  · rcases Option.bind_eq_some_iff.mp followed with ⟨resolved, resolves, below⟩
    rcases exists_location_of_resolve? resolves with ⟨location, rfl, named⟩
    have all := isStep_of_mem_names named
    have normal : Path.normalizeComponents (.root :: location.map Component.name) =
        .root :: location.map Component.name :=
      Path.foldl_step_append [.root] _ [] (Path.foldl_step_names [] location)
    have isNormal := Path.isNormal_normalizeComponents (.root :: location.map Component.name)
    rw [normal] at isNormal
    rcases Path.exists_of_below? rootAbsolute all below with ⟨front, rest, spelled, split, same⟩
    rw [split] at all isNormal
    exact ⟨front, rest, spelled, all, isNormal, same⟩

/-- A path that leads into the workspace is brought into the form in which the index files it. -/
theorem isPlain_of_relativize? {workspace : Workspace} {tree : FileTree} {path relative : Path}
    (seen : workspace.relativize? tree path = some relative) : relative.IsPlain := by
  rcases exists_of_relativize? seen with ⟨front, rest, -, all, -, rfl⟩
  have restAll : ∀ step ∈ rest, step.IsStep := fun step member =>
    all step (List.mem_append_right _ member)
  rw [Path.IsPlain, Path.components_ofComponents restAll]

/-- It leads down from the root, unless that is the root of all directories. -/
theorem leadsDown_of_relativize? {workspace : Workspace} {tree : FileTree} {path relative : Path}
    (named : workspace.rootPath.fileName?.isSome = true)
    (seen : workspace.relativize? tree path = some relative) : relative.LeadsDown := by
  rcases exists_of_relativize? seen with ⟨front, rest, spelled, all, normal, rfl⟩
  have restAll : ∀ step ∈ rest, step.IsStep := fun step member =>
    all step (List.mem_append_right _ member)
  apply Path.leadsDown_ofComponents restAll
  rw [Path.fileName?, spelled] at named
  induction front using List.reverseRecOn with
  | nil => cases named
  | append_singleton front last _ =>
      rw [← List.cons_append, List.getLast?_concat] at named
      cases last with
      | name text =>
          rw [List.append_assoc, ← List.cons_append] at normal
          exact normal.isName_of_mem restAll
      | _ => cases named

/-- How a path is seen from the root depends on its components only. -/
theorem relativize?_congr (workspace : Workspace) (tree : FileTree) {left right : Path}
    (same : left.Same right) : workspace.relativize? tree left = workspace.relativize? tree right := by
  have components : left.components = right.components := same
  have joined : (workspace.rootPath.join left).components =
      (workspace.rootPath.join right).components := by
    cases absolute : left.isAbsolute with
    | true =>
        rcases Path.exists_steps_of_absolute absolute with ⟨steps, spelled, -⟩
        rw [Path.join_of_absolute _ absolute, Path.join_of_absolute _
          (Path.isAbsolute_of_components (components.symm.trans spelled)), components]
    | false =>
        have relative : right.isAbsolute = false := by
          by_contra other
          rw [Bool.not_eq_false] at other
          rcases Path.exists_steps_of_absolute other with ⟨steps, spelled, -⟩
          simp [Path.isAbsolute_of_components (components.trans spelled)] at absolute
        rcases Path.exists_steps_of_absolute workspace.isAbsolute_rootPath with ⟨steps, spelled, -⟩
        rw [Path.components_join_of_relative spelled absolute,
          Path.components_join_of_relative spelled relative, components]
  rw [relativize?, relativize?, Path.normalize, Path.normalize, joined]

end Workspace

/-! ## Spellings through links -/

namespace FileTree

/-- There are no links at or below a location. -/
def PlainBelow (tree : FileTree) (above : Location) : Prop :=
  ∀ entry ∈ tree.entries, above <+: entry.1 → entry.2.isDirectory ∨ entry.2.isFile

instance (tree : FileTree) (above : Location) : Decidable (tree.PlainBelow above) :=
  inferInstanceAs (Decidable (∀ entry ∈ tree.entries, _))

theorem PlainBelow.node? {tree : FileTree} {above names : Location} {node : FileNode}
    (plain : tree.PlainBelow above) (found : tree.node? (above ++ names) = some node) :
    node.isDirectory ∨ node.isFile := by
  by_cases empty : above ++ names = []
  · rw [empty, node?_nil] at found
    rw [← Option.some.inj found]
    exact .inl rfl
  · exact plain _ (mem_of_node? empty found) (List.prefix_append above names)

/-- A path that leads to a directory from elsewhere, as one through a link does. -/
structure LinksTo (tree : FileTree) (link : Path) (directory : Location) : Prop where
  spelled : ∃ location, link.components = .root :: location.map Component.name ∧
    ¬directory <+: location
  leads : tree.locate? link = some directory

section Through

variable {tree : FileTree} (wellFormed : tree.WellFormed) {directory : Location}
  (inside : tree.node? directory = some .directory) (plain : tree.PlainBelow directory)
include wellFormed inside plain

/-- Names after a path that leads to a directory are looked up in that directory. -/
theorem WellFormed.locate?_through {path link : Path} {names : List String}
    (leads : tree.locate? link = some directory)
    (spelled : path.components = link.components ++ names.map Component.name) :
    tree.locate? path =
      if (tree.node? (directory ++ names)).isSome then some (directory ++ names) else none := by
  rcases exists_follow_append (names.map Component.name) leads inside with ⟨left, same⟩
  rw [locate?, spelled, same]
  cases found : tree.node? (directory ++ names) with
  | some node =>
      rw [Option.isSome_some, if_pos rfl]
      exact follow_of_arrived left (wellFormed.walk_names (plain.node? found) names found)
  | none =>
      have nonempty : names ≠ [] := by
        rintro rfl
        rw [List.append_nil, inside] at found
        simp at found
      rw [Option.isSome_none, if_neg Bool.false_ne_true]
      apply follow_of_lost left
      apply walk_names_lost nonempty found
      intro front _ _ node there
      exact plain.node? there

/-- What is named through a link does not lie below the directory that the link leads to. -/
theorem WellFormed.not_prefix_of_leads {link : Path} {location : Location} (names : List String)
    (spelled : link.components = .root :: location.map Component.name)
    (outside : ¬directory <+: location) (leads : tree.locate? link = some directory) :
    ¬directory <+: location ++ names := by
  intro begins
  rcases List.prefix_or_prefix_of_prefix begins (List.prefix_append location names) with
    within | ⟨more, rfl⟩
  · exact outside within
  · by_cases empty : more = []
    · exact outside (by simp [empty])
    · -- The link would be a directory on the way to the directory that it leads to.
      have above := wellFormed.directory_above empty (by rw [inside]; rfl)
      have there := wellFormed.locate?_eq_some spelled above (.inl rfl)
      exact empty (by simpa using there.symm.trans leads)

end Through

end FileTree

namespace Workspace

theorem isEntryName_of_spelled {path : Path} {location : Location}
    (spelled : path.components = .root :: location.map Component.name) :
    ∀ name ∈ location, IsEntryName name := by
  intro name member
  have inside : Component.name name ∈ path.components := by
    rw [spelled]
    exact List.mem_cons_of_mem _ (List.mem_map_of_mem member)
  exact Path.isEntryName_of_mem_components inside

section Spellings

variable {workspace : Workspace} {tree : FileTree} (wellFormed : tree.WellFormed)
  (inside : tree.node? workspace.root = some .directory) {path : Path} {names : List String}
include wellFormed inside

theorem isEntryName_of_mem_root : ∀ name ∈ workspace.root, IsEntryName name := by
  apply wellFormed.isEntryName
  rw [inside]
  rfl

theorem components_rootPath :
    workspace.rootPath.components = .root :: workspace.root.map Component.name :=
  Path.components_pathOf (isEntryName_of_mem_root wellFormed inside)

theorem relativize?_of_normalize {absolute : Path} (isAbsolute : absolute.isAbsolute = true)
    (normal : absolute.normalize = FileTree.pathOf (workspace.root ++ names))
    (named : ∀ name ∈ names, IsEntryName name) :
    workspace.relativize? tree absolute = some (Path.ofNames names) := by
  have rootNamed := isEntryName_of_mem_root wellFormed inside
  rw [relativize?, Path.join_of_absolute _ isAbsolute]
  simp only [normal, rootPath, Path.below?_pathOf rootNamed named, Option.some_or]

theorem relativize?_join_root (along : path.GoesAlong names) {base : Path}
    (same : base.Same workspace.rootPath) :
    workspace.relativize? tree (base.join path) = some (Path.ofNames names) := by
  have spelled : base.components = .root :: workspace.root.map Component.name :=
    Eq.trans same (components_rootPath wellFormed inside)
  rcases along.normalize_join spelled with ⟨isAbsolute, normal⟩
  exact relativize?_of_normalize wellFormed inside isAbsolute normal along.isEntryName

theorem relativize?_of_goesAlong (along : path.GoesAlong names) :
    workspace.relativize? tree path = some (Path.ofNames names) := by
  have joined := relativize?_join_root wellFormed inside along (rfl : workspace.rootPath.Same _)
  rcases along.normalize_join (components_rootPath wellFormed inside) with ⟨isAbsolute, -⟩
  rw [← joined, relativize?, relativize?, Path.join_of_absolute _ isAbsolute]

theorem locate?_pathOf_through (plain : tree.PlainBelow workspace.root) {link : Path}
    {location : Location} (spelled : link.components = .root :: location.map Component.name)
    (leads : tree.locate? link = some workspace.root) (named : ∀ name ∈ names, IsEntryName name) :
    tree.locate? (FileTree.pathOf (location ++ names)) =
      if (tree.node? (workspace.root ++ names)).isSome then some (workspace.root ++ names)
      else none := by
  apply wellFormed.locate?_through inside plain leads
  rw [spelled, Path.components_pathOf, List.map_append, List.cons_append]
  exact List.forall_mem_append.mpr ⟨isEntryName_of_spelled spelled, named⟩

/-- Through a link, a path is resolved when the directory in which it ends is there. -/
theorem resolve?_through_link (plain : tree.PlainBelow workspace.root) {link : Path}
    {location : Location} (spelled : link.components = .root :: location.map Component.name)
    (leads : tree.locate? link = some workspace.root) (named : ∀ name ∈ names, IsEntryName name) :
    resolve? tree (FileTree.pathOf (location ++ names)) =
      if (tree.node? (workspace.root ++ names.dropLast)).isSome then
        some (FileTree.pathOf (workspace.root ++ names)) else none := by
  have through {more : List String} (moreNamed : ∀ name ∈ more, IsEntryName name) :=
    locate?_pathOf_through wellFormed inside plain spelled leads moreNamed
  rw [resolve?, through named]
  cases names using List.reverseRecOn with
  | nil =>
      rw [List.dropLast_nil, List.append_nil, inside]
      rfl
  | append_singleton front last =>
      rcases List.forall_mem_append.mp named with ⟨frontNamed, lastNamed⟩
      have lastNamed := List.forall_mem_singleton.mp lastNamed
      have outer := List.forall_mem_append.mpr ⟨isEntryName_of_spelled spelled, frontNamed⟩
      have inner := List.forall_mem_append.mpr ⟨isEntryName_of_mem_root wellFormed inside, frontNamed⟩
      rw [List.dropLast_concat]
      cases found : tree.node? (workspace.root ++ (front ++ [last])) with
      | some node =>
          -- What is there lies in a directory.
          rw [← List.append_assoc] at found
          have above := wellFormed.directory_above (List.cons_ne_nil last []) (by rw [found]; rfl)
          rw [above]
          rfl
      | none =>
          -- Nothing is there, so the directory in which it would lie is resolved.
          rw [Option.isSome_none, if_neg Bool.false_ne_true, ← List.append_assoc,
            ← List.append_assoc]
          simp only [Path.parent?_pathOf outer lastNamed, Path.fileName?_pathOf outer lastNamed,
            Option.bind_eq_bind, Option.bind_some, through frontNamed]
          split
          · rw [Option.bind_some, Path.pathOf_join_name inner lastNamed]
          · rfl

theorem relativize?_join_link (plain : tree.PlainBelow workspace.root) (along : path.GoesAlong names)
    {link : Path} (links : tree.LinksTo link workspace.root) :
    workspace.relativize? tree (link.join path) =
      if (tree.node? (workspace.root ++ names.dropLast)).isSome then some (Path.ofNames names)
      else none := by
  rcases links with ⟨⟨location, spelled, outside⟩, leads⟩
  rcases along.normalize_join spelled with ⟨isAbsolute, normal⟩
  have rootNamed := isEntryName_of_mem_root wellFormed inside
  have named := along.isEntryName
  have all := List.forall_mem_append.mpr ⟨isEntryName_of_spelled spelled, named⟩
  have apart := wellFormed.not_prefix_of_leads inside plain names spelled outside leads
  rw [relativize?, Path.join_of_absolute _ isAbsolute]
  simp only [normal, rootPath, Path.below?_eq_none all rootNamed apart, Option.none_or,
    resolve?_through_link wellFormed inside plain spelled leads named]
  split
  · exact Path.below?_pathOf rootNamed named
  · rfl

end Spellings

end Workspace

namespace Indexer

/-- What an update does depends on its path only by how that is seen from the root. -/
theorem scanFile_congr {tree : FileTree} {left right : Path} {indexer : Indexer}
    (same : indexer.workspace.relativize? tree left = indexer.workspace.relativize? tree right) :
    indexer.scanFile tree left = indexer.scanFile tree right := by
  unfold scanFile
  rw [same]

theorem scanFile_of_outside {tree : FileTree} {path : Path} {indexer : Indexer}
    (outside : indexer.workspace.relativize? tree path = none) :
    indexer.scanFile tree path = (.skipped, indexer) := by
  unfold scanFile
  rw [outside]

/-- However a file of the workspace is spelled from the root or by its whole path, it is seen as the same
file, and an update of it does the same. Through a link to the root this holds as long as the directory of
the file exists; otherwise the update is skipped. -/
theorem scanFile_of_goesAlong {tree : FileTree} {indexer : Indexer} {path : Path}
    {names : List String} (wellFormed : tree.WellFormed)
    (inside : tree.node? indexer.workspace.root = some .directory)
    (plain : tree.PlainBelow indexer.workspace.root) (along : path.GoesAlong names) :
    let workspace := indexer.workspace
    let named := Path.ofNames names
    (workspace.relativize? tree path = some named ∧
      indexer.scanFile tree path = indexer.scanFile tree named) ∧
    (∀ base : Path, base.Same workspace.rootPath →
      workspace.relativize? tree (base.join path) = some named ∧
        indexer.scanFile tree (base.join path) = indexer.scanFile tree named) ∧
    ∀ link : Path, tree.LinksTo link workspace.root →
      if (tree.node? (workspace.root ++ names.dropLast)).isSome then
        workspace.relativize? tree (link.join path) = some named ∧
          indexer.scanFile tree (link.join path) = indexer.scanFile tree named
      else
        workspace.relativize? tree (link.join path) = none ∧
          indexer.scanFile tree (link.join path) = (.skipped, indexer) := by
  intro workspace named
  have plainly : workspace.relativize? tree named = some named :=
    Workspace.relativize?_of_goesAlong wellFormed inside (Path.ofNames_goesAlong along.isEntryName)
  have both {other : Path} (seen : workspace.relativize? tree other = some named) :
      workspace.relativize? tree other = some named ∧
        indexer.scanFile tree other = indexer.scanFile tree named :=
    ⟨seen, scanFile_congr (seen.trans plainly.symm)⟩
  refine ⟨both (Workspace.relativize?_of_goesAlong wellFormed inside along), ?_, ?_⟩
  · intro base same
    exact both (Workspace.relativize?_join_root wellFormed inside along same)
  · intro link links
    have through := Workspace.relativize?_join_link wellFormed inside plain along links
    split
    · rename_i present
      rw [if_pos present] at through
      exact both through
    · rename_i missing
      rw [if_neg missing] at through
      exact ⟨through, scanFile_of_outside through⟩

/-- The directory `w` with its sources, and a link to it. -/
def linkedSources : FileTree :=
  ⟨[(["w"], .directory), (["w", "b.ts"], .file (.text "export let b")), (["v"], .link ⟨"/w"⟩)]⟩

/-- An indexer that found a file in a directory that is gone by now. -/
def foundBelow : Indexer :=
  { Indexer.new ⟨["w"], ⟨(Glob.Pattern.parse? "**/*.ts").toList, [], []⟩, true⟩ with
    index := SymbolIndex.empty.replaceFile ⟨"src/a.ts"⟩ [⟨"a", .variable, ⟨"src/a.ts"⟩, none⟩] }

theorem linkedSources_linksTo : linkedSources.LinksTo ⟨"/v"⟩ foundBelow.workspace.root :=
  ⟨⟨["v"], by decide +kernel, by decide +kernel⟩, by decide +kernel⟩

theorem scanFile_of_goesAlong_of_detour :
    (foundBelow.scanFile linkedSources ⟨"./gone/../b.ts"⟩).1 = .indexed 1 ∧
      foundBelow.scanFile linkedSources ⟨"./gone/../b.ts"⟩ =
        foundBelow.scanFile linkedSources (Path.ofNames ["b.ts"]) ∧
      foundBelow.scanFile linkedSources ((Path.mk "/v").join ⟨"./gone/../b.ts"⟩) =
        foundBelow.scanFile linkedSources (Path.ofNames ["b.ts"]) ∧
      foundBelow.workspace.relativize? linkedSources ((Path.mk "/v").join ⟨"src/./a.ts"⟩) = none := by
  have wellFormed : linkedSources.WellFormed := by decide +kernel
  have inside : linkedSources.node? foundBelow.workspace.root = some .directory := by decide +kernel
  have plain : linkedSources.PlainBelow foundBelow.workspace.root := by decide +kernel
  have detour : (Path.mk "./gone/../b.ts").GoesAlong ["b.ts"] := by decide
  have missed : (Path.mk "src/./a.ts").GoesAlong ["src", "a.ts"] := by decide
  rcases scanFile_of_goesAlong wellFormed inside plain detour with ⟨⟨-, same⟩, -, through⟩
  rcases scanFile_of_goesAlong wellFormed inside plain missed with ⟨-, -, lost⟩
  have present := through ⟨"/v"⟩ linkedSources_linksTo
  have missing := lost ⟨"/v"⟩ linkedSources_linksTo
  rw [if_pos (by decide +kernel)] at present
  rw [if_neg (by decide +kernel)] at missing
  exact ⟨by decide +kernel, same, present.2, missing.1⟩

/-- A deleted file of a deleted directory is updated when it is spelled from the root, and is skipped, so
that the index keeps it, when it is spelled through a link to the root. -/
theorem skipped_through_link :
    linkedSources.WellFormed ∧ linkedSources.node? foundBelow.workspace.root = some .directory ∧
      linkedSources.PlainBelow foundBelow.workspace.root ∧
      linkedSources.LinksTo ⟨"/v"⟩ foundBelow.workspace.root ∧
      foundBelow.workspace.relativize? linkedSources ⟨"src/a.ts"⟩ = some ⟨"src/a.ts"⟩ ∧
      (foundBelow.scanFile linkedSources ⟨"src/a.ts"⟩).1 = .removed 1 ∧
      foundBelow.workspace.relativize? linkedSources ⟨"/v/src/a.ts"⟩ = none ∧
      (foundBelow.scanFile linkedSources ⟨"/v/src/a.ts"⟩).1 = .skipped ∧
      (foundBelow.scanFile linkedSources ⟨"/v/src/a.ts"⟩).2.index.listFiles = [⟨"src/a.ts"⟩] := by
  refine ⟨by decide +kernel, by decide +kernel, by decide +kernel, linkedSources_linksTo,
    by decide +kernel, by decide +kernel, by decide +kernel, by decide +kernel, by decide +kernel⟩

end Indexer

end AutoImport
