import AutoImport.Proofs.Path.Components
import Mathlib.Data.List.Induction

/-!
# Well-formed trees of files

In a well-formed tree every entry has a location of its own and lies in a directory. A path that is
put together from the names of a location leads there, unless a link is on the way.
-/

namespace AutoImport.FileTree

open Component

/-- Each location has one entry at most, its names can be names, and it lies in a directory. -/
structure WellFormed (tree : FileTree) : Prop where
  distinct : (tree.entries.map Prod.fst).Nodup
  named : ∀ entry ∈ tree.entries, ∀ name ∈ entry.1, IsEntryName name
  inside : ∀ entry ∈ tree.entries, entry.1 ≠ [] ∧ tree.node? entry.1.dropLast = some .directory

instance (tree : FileTree) : Decidable tree.WellFormed :=
  decidable_of_iff
    ((tree.entries.map Prod.fst).Nodup ∧ (∀ entry ∈ tree.entries, ∀ name ∈ entry.1, IsEntryName name) ∧
      ∀ entry ∈ tree.entries, entry.1 ≠ [] ∧ tree.node? entry.1.dropLast = some .directory)
    ⟨fun ⟨distinct, named, inside⟩ => ⟨distinct, named, inside⟩,
      fun ⟨distinct, named, inside⟩ => ⟨distinct, named, inside⟩⟩

/-! ## Entries by their locations -/

@[simp]
theorem node?_nil (tree : FileTree) : tree.node? [] = some .directory := by
  rfl

theorem node?_of_ne_nil {tree : FileTree} {location : Location} (nonempty : location ≠ []) :
    tree.node? location = tree.entries.lookup location := by
  rw [node?, if_neg (by simpa using nonempty)]

theorem mem_of_node? {tree : FileTree} {location : Location} {node : FileNode} (nonempty : location ≠ [])
    (found : tree.node? location = some node) : (location, node) ∈ tree.entries := by
  rw [node?_of_ne_nil nonempty] at found
  obtain ⟨front, back, split, -⟩ := List.lookup_eq_some_iff.mp found
  simp [split]

theorem WellFormed.node?_of_mem {tree : FileTree} (wellFormed : tree.WellFormed)
    {location : Location} {node : FileNode} (member : (location, node) ∈ tree.entries) :
    tree.node? location = some node := by
  have nonempty := (wellFormed.inside _ member).1
  obtain ⟨front, back, split⟩ := List.append_of_mem member
  have distinct := wellFormed.distinct
  rw [split, List.map_append, List.map_cons] at distinct
  rw [node?_of_ne_nil nonempty, List.lookup_eq_some_iff]
  refine ⟨front, back, split, fun entry earlier => ?_⟩
  have apart := (List.nodup_append.mp distinct).2.2 entry.1 (List.mem_map_of_mem earlier) location
    List.mem_cons_self
  simpa using Ne.symm apart

theorem WellFormed.isEntryName {tree : FileTree} (wellFormed : tree.WellFormed) {location : Location}
    (present : (tree.node? location).isSome) : ∀ name ∈ location, IsEntryName name := by
  by_cases empty : location = []
  · simp [empty]
  · obtain ⟨node, found⟩ := Option.isSome_iff_exists.mp present
    exact wellFormed.named _ (mem_of_node? empty found)

/-- What lies above an entry is a directory. -/
theorem WellFormed.directory_above {tree : FileTree} (wellFormed : tree.WellFormed)
    {above below : Location} (nonempty : below ≠ [])
    (present : (tree.node? (above ++ below)).isSome) : tree.node? above = some .directory := by
  induction below using List.reverseRecOn with
  | nil => exact absurd rfl nonempty
  | append_singleton names name ih =>
      obtain ⟨node, found⟩ := Option.isSome_iff_exists.mp present
      have directory := (wellFormed.inside _ (mem_of_node? (by simp) found)).2
      rw [← List.append_assoc, List.dropLast_concat] at directory
      by_cases empty : names = []
      · simpa [empty] using directory
      · exact ih empty (by simp [directory])

/-! ## Paths that lead to a location -/

/-- A walk along existing directories gets to the entry at their end. -/
theorem WellFormed.walk_names {tree : FileTree} (wellFormed : tree.WellFormed) {node : FileNode}
    (plain : node.isDirectory ∨ node.isFile) (names : List String) {directory : Location}
    (found : tree.node? (directory ++ names) = some node) :
    tree.walk directory (names.map Component.name) = .arrived (directory ++ names) := by
  induction names generalizing directory with
  | nil => simp [walk]
  | cons name names ih =>
      rw [List.append_cons] at found ⊢
      have onward := ih found
      rw [List.map_cons, walk]
      by_cases empty : names = []
      · subst empty
        rw [List.append_nil] at found ⊢
        cases node with
        | directory => simp [found, walk]
        | file => simp [found]
        | link => simp [FileNode.isDirectory, FileNode.isFile] at plain
      · have inner := wellFormed.directory_above empty (by rw [found]; rfl)
        simp only [inner]
        exact onward

/-- A walk to where there is no entry gets lost when no link is on the way. -/
theorem walk_names_lost {tree : FileTree} {names : List String} {directory : Location}
    (nonempty : names ≠ []) (gone : tree.node? (directory ++ names) = none)
    (free : ∀ front, front <+: names → front ≠ names → ∀ node,
      tree.node? (directory ++ front) = some node → node.isDirectory ∨ node.isFile) :
    tree.walk directory (names.map Component.name) = .lost := by
  induction names generalizing directory with
  | nil => exact absurd rfl nonempty
  | cons name names ih =>
      rw [List.map_cons, walk]
      by_cases empty : names = []
      · subst empty
        simp [gone]
      · cases inner : tree.node? (directory ++ [name]) with
        | none => simp
        | some node =>
            have within := free [name] (by simp) (by simpa using Ne.symm empty) node inner
            cases node with
            | link => simp [FileNode.isDirectory, FileNode.isFile] at within
            | file => simp [empty]
            | directory =>
                refine ih empty (by simpa using gone) fun front begins apart other found => ?_
                refine free (name :: front) (by simpa using begins) (by simpa using apart) other ?_
                simpa using found

theorem follow_of_arrived {tree : FileTree} {directory location : Location}
    {components : List Component} (links : Nat)
    (arrives : tree.walk directory components = .arrived location) :
    tree.follow links directory components = some location := by
  cases links <;> simp [follow, arrives]

theorem follow_of_lost {tree : FileTree} {directory : Location} {components : List Component}
    (links : Nat) (gets : tree.walk directory components = .lost) :
    tree.follow links directory components = none := by
  cases links <;> simp [follow, gets]

section Paths

variable {tree : FileTree} {path : Path} {location : Location}
  (spells : path.components = .root :: location.map Component.name)
include spells

theorem WellFormed.locate?_eq_some (wellFormed : tree.WellFormed) {node : FileNode}
    (found : tree.node? location = some node) (plain : node.isDirectory ∨ node.isFile) :
    tree.locate? path = some location := by
  rw [locate?, spells]
  have there : tree.node? ([] ++ location) = some node := found
  exact follow_of_arrived _ (wellFormed.walk_names plain location there)

theorem locate?_eq_none (nonempty : location ≠ []) (gone : tree.node? location = none)
    (free : ∀ above, above <+: location → above ≠ location → ∀ node,
      tree.node? above = some node → node.isDirectory ∨ node.isFile) : tree.locate? path = none := by
  rw [locate?, spells]
  have missing : tree.node? ([] ++ location) = none := gone
  exact follow_of_lost _ (walk_names_lost nonempty missing free)

theorem WellFormed.content?_eq_some (wellFormed : tree.WellFormed) {content : FileContent}
    (found : tree.node? location = some (.file content)) : tree.content? path = some content := by
  have located := wellFormed.locate?_eq_some spells found (.inr rfl)
  rw [content?, find?, located, Option.bind_some, found]

theorem WellFormed.isFile_eq_true (wellFormed : tree.WellFormed) {content : FileContent}
    (found : tree.node? location = some (.file content)) : tree.isFile path = true := by
  have located := wellFormed.locate?_eq_some spells found (.inr rfl)
  rw [isFile, find?, located, Option.bind_some, found]
  rfl

/-- Where no link is on the way, a path leads to what is at its location. -/
theorem WellFormed.content?_eq_of_linkless (wellFormed : tree.WellFormed)
    (free : ∀ other node, tree.node? other = some node → node.isDirectory ∨ node.isFile) :
    tree.content? path =
      match tree.node? location with
      | some (.file content) => some content
      | _ => none := by
  cases found : tree.node? location with
  | none =>
      have nonempty : location ≠ [] := by
        rintro rfl
        simp at found
      have missing := locate?_eq_none spells nonempty found fun above _ _ node => free above node
      rw [content?, find?, missing]
      rfl
  | some node =>
      have located := wellFormed.locate?_eq_some spells found (free location node found)
      cases node <;> simp only [content?, find?, located, Option.bind_some, found]

theorem isFile_eq_false (nonempty : location ≠ []) (gone : tree.node? location = none)
    (free : ∀ above, above <+: location → above ≠ location → ∀ node,
      tree.node? above = some node → node.isDirectory ∨ node.isFile) : tree.isFile path = false := by
  rw [isFile, find?, locate?_eq_none spells nonempty gone free]
  rfl

end Paths

/-- Nothing is read below a file. -/
theorem WellFormed.content?_below_file {tree : FileTree} (wellFormed : tree.WellFormed) {path : Path}
    {location : Location} {inner : List String} {content : FileContent}
    (spells : path.components = .root :: (location ++ inner).map Component.name)
    (there : tree.node? location = some (.file content)) (nonempty : inner ≠ []) :
    tree.content? path = none := by
  have missing {more : List String} (further : more ≠ []) : tree.node? (location ++ more) = none := by
    rw [← Option.not_isSome_iff_eq_none]
    intro present
    have directory := wellFormed.directory_above further present
    rw [there] at directory
    simp at directory
  have lost := locate?_eq_none spells (by simp [nonempty]) (missing nonempty) <| by
    rintro above ⟨rest, split⟩ - node found
    rcases List.append_eq_append_iff.mp split with ⟨outer, rfl, -⟩ | ⟨further, rfl, -⟩
    · by_cases empty : outer = []
      · subst empty
        rw [List.append_nil] at there
        rw [← Option.some.inj (there.symm.trans found)]
        exact .inr rfl
      · have directory := wellFormed.directory_above empty (by rw [there]; rfl)
        rw [← Option.some.inj (directory.symm.trans found)]
        exact .inl rfl
    · by_cases empty : further = []
      · subst empty
        rw [List.append_nil] at found
        rw [← Option.some.inj (there.symm.trans found)]
        exact .inr rfl
      · simp [missing empty] at found
  rw [content?, find?, lost]
  rfl

end AutoImport.FileTree
