import AutoImport.Proofs.Files.Change
import AutoImport.Proofs.Files.Walk

/-!
# Directories and files that are made

A directory can be made where a path leads to a directory and goes on with names that nothing there has.
Making it, and writing a file, keeps what paths lead to, also through links.
-/

namespace AutoImport.FileTree

open Component

/-! ## Trees that keep their entries -/

/-- All entries are still there, files perhaps with another content. -/
def Keeps (tree after : FileTree) : Prop :=
  ∀ location node, tree.node? location = some node →
    after.node? location = some node ∨
      (node.isFile ∧ ∃ content, after.node? location = some (.file content))

section Keeps

variable {tree after : FileTree} (keeps : tree.Keeps after) {directory location : Location}
  {components : List Component}
include keeps

/-- A walk that gets somewhere still gets there. -/
theorem Keeps.walk_eq (gets : tree.walk directory components ≠ .lost) :
    after.walk directory components = tree.walk directory components := by
  induction components generalizing directory with
  | nil => rfl
  | cons component components ih =>
      cases component with
      | root => exact ih gets
      | current => exact ih gets
      | parent => exact ih gets
      | name text =>
          rw [walk] at gets ⊢
          rw [walk]
          cases found : tree.node? (directory ++ [text]) with
          | none => simp [found] at gets
          | some node =>
              rcases keeps _ node found with same | ⟨isFile, content, other⟩
              · cases node with
                | directory =>
                    simp only [found, same] at gets ⊢
                    exact ih gets
                | file content => simp only [same]
                | link target => simp only [same]
              · cases node with
                | directory => simp [FileNode.isFile] at isFile
                | file before => simp only [other]
                | link target => simp [FileNode.isFile] at isFile

theorem Keeps.follow_eq_some {links : Nat}
    (arrives : tree.follow links directory components = some location) :
    after.follow links directory components = some location := by
  have gets : tree.walk directory components ≠ .lost := by
    intro lost
    rw [follow_of_lost links lost] at arrives
    simp at arrives
  have same := keeps.walk_eq gets
  induction links generalizing directory components with
  | zero => rwa [follow, same, ← follow]
  | succ links ih =>
      rw [follow] at arrives ⊢
      rw [same]
      cases reach : tree.walk directory components with
      | arrived other => rwa [reach] at arrives
      | lost => exact absurd reach gets
      | link inside target rest =>
          rw [reach] at arrives
          have onward : tree.walk inside (target.components ++ rest) ≠ .lost := by
            intro lost
            simp [follow_of_lost links lost] at arrives
          exact ih arrives onward (keeps.walk_eq onward)

theorem Keeps.locate?_eq_some {path : Path} (arrives : tree.locate? path = some location) :
    after.locate? path = some location :=
  keeps.follow_eq_some arrives

end Keeps

/-- Trees with the same entries lead to the same places. -/
theorem locate?_congr {tree after : FileTree} (same : ∀ location, after.node? location = tree.node? location)
    (path : Path) : after.locate? path = tree.locate? path := by
  have keeps : tree.Keeps after := fun location node found => .inl ((same location).trans found)
  have keptBack : after.Keeps tree := fun location node found =>
    .inl ((same location).symm.trans found)
  ext location
  exact ⟨keptBack.locate?_eq_some, keeps.locate?_eq_some⟩

/-! ## Where entries are created -/

section Follow

variable {tree : FileTree} {front : List Component} {place : Location}
  (arrives : tree.follow maxLinks [] front = some place) (inside : tree.node? place = some .directory)
include arrives inside

theorem follow_append_names {names : List String} {location : Location}
    (goesOn : tree.walk place (names.map Component.name) = .arrived location) :
    tree.follow maxLinks [] (front ++ names.map Component.name) = some location := by
  rcases exists_follow_append (names.map Component.name) arrives inside with ⟨left, same⟩
  rw [same, follow_of_arrived left goesOn]

/-- A name that nothing has leads nowhere, and so does what follows it. -/
theorem follow_append_name {name : String} (gone : tree.node? (place ++ [name]) = none)
    (rest : List Component) : tree.follow maxLinks [] (front ++ .name name :: rest) = none := by
  rcases exists_follow_append (.name name :: rest) arrives inside with ⟨left, same⟩
  have lost : tree.walk place (.name name :: rest) = .lost := by simp [walk, gone]
  rw [same, follow_of_lost left lost]

end Follow

/-- A walk along directories gets to the last of them. -/
theorem walk_of_directories {tree : FileTree} {names : List String} {directory : Location}
    (all : ∀ front, front <+: names → front ≠ [] → tree.node? (directory ++ front) = some .directory) :
    tree.walk directory (names.map Component.name) = .arrived (directory ++ names) := by
  induction names generalizing directory with
  | nil => simp [walk]
  | cons name names ih =>
      have first := all [name] (by simp) (by simp)
      rw [List.map_cons, walk]
      simp only [first]
      rw [ih fun front begins nonempty => ?_, List.append_assoc, List.singleton_append]
      simpa using all (name :: front) (by simpa using begins) (by simp)

theorem pairwise_beginnings {α : Type} (items : List α) :
    (beginnings items).Pairwise fun first second => first.length < second.length := by
  rw [beginnings, List.pairwise_map]
  refine List.pairwise_lt_range.imp_of_mem fun {first second} _ member lower => ?_
  have bounded := List.mem_range.mp member
  rw [List.length_take, List.length_take]
  omega

/-- Among the beginnings of a list, from the longest one on, the first that gives anything is found. -/
theorem findSome?_beginnings {α β : Type} {items front : List α} {read : List α → Option β} {value : β}
    (begins : front <+: items) (found : read front = some value)
    (longest : ∀ more, more ≠ [] → front ++ more <+: items → read (front ++ more) = none) :
    (beginnings items).reverse.findSome? read = some value := by
  obtain ⟨longer, shorter, split⟩ :=
    List.append_of_mem (List.mem_reverse.mpr (mem_beginnings.mpr begins))
  have decreasing := List.pairwise_reverse.mpr (pairwise_beginnings items)
  rw [split] at decreasing
  refine List.findSome?_eq_some_iff.mpr ⟨longer, front, shorter, split, found, fun start member => ?_⟩
  have lower := (List.pairwise_append.mp decreasing).2.2 start member front List.mem_cons_self
  have inside : start <+: items := by
    rw [← mem_beginnings, ← List.mem_reverse, split]
    exact List.mem_append_left _ member
  obtain ⟨more, rfl⟩ := List.prefix_of_prefix_length_le begins inside (Nat.le_of_lt lower)
  refine longest more ?_ inside
  rintro rfl
  simp at lower

theorem filterMap_names {read : Component → Option String}
    (reads : ∀ text, read (.name text) = some text) (names : List String) :
    (names.map Component.name).filterMap read = names := by
  induction names with
  | nil => rfl
  | cons name names ih => rw [List.map_cons, List.filterMap_cons, reads, ih]

/-- An entry is created where the longest beginning that leads anywhere leads to, under the names after
it. -/
theorem locationFor_of_longest {tree : FileTree} {path : Path} {front : List Component}
    {names : List String} {place : Location}
    (spells : path.components = front ++ names.map Component.name)
    (arrives : tree.follow maxLinks [] front = some place)
    (longest : ∀ more, more ≠ [] → more <+: names.map Component.name →
      tree.follow maxLinks [] (front ++ more) = none) :
    tree.locationFor path = place ++ names := by
  have found : (beginnings path.components).reverse.findSome? (fun start =>
      (tree.follow maxLinks [] start).map fun location => (start.length, location)) =
        some (front.length, place) := by
    refine findSome?_beginnings (spells ▸ List.prefix_append _ _) (by rw [arrives]; rfl) ?_
    intro more nonempty begins
    rw [spells, List.prefix_append_right_inj] at begins
    rw [longest more nonempty begins]
    rfl
  simp only [locationFor, found]
  rw [spells, List.drop_left, filterMap_names fun _ => rfl]

theorem locationFor_of_locate? {tree : FileTree} {path : Path} {location : Location}
    (arrives : tree.locate? path = some location) : tree.locationFor path = location := by
  have here := @locationFor_of_longest tree path path.components [] location (by simp) arrives
    fun more nonempty begins => absurd (List.prefix_nil.mp begins) nonempty
  rwa [List.append_nil] at here

/-! ## Directories that can be made -/

theorem WellFormed.directory_of_prefix {tree : FileTree} (wellFormed : tree.WellFormed)
    {above location : Location} (inside : tree.node? location = some .directory)
    (begins : above <+: location) : tree.node? above = some .directory := by
  obtain ⟨rest, rfl⟩ := begins
  by_cases empty : rest = []
  · rwa [empty, List.append_nil] at inside
  · exact wellFormed.directory_above empty (by rw [inside]; rfl)

/-- A path leads to a directory up to names that nothing there has, if there are such names at its end. -/
structure LeadsTo (tree : FileTree) (path : Path) (place : Location) (missing : List String) : Prop where
  leads : ∃ front, path.components = front ++ missing.map Component.name ∧
    tree.follow maxLinks [] front = some place
  inside : tree.node? place = some .directory
  free : ∀ name ∈ missing.head?, tree.node? (place ++ [name]) = none

namespace LeadsTo

variable {tree : FileTree} {path : Path} {place : Location} {missing : List String}
  (leadsTo : tree.LeadsTo path place missing)
include leadsTo

theorem follow_eq_none {front : List Component} (arrives : tree.follow maxLinks [] front = some place)
    {more : List Component} (nonempty : more ≠ []) (begins : more <+: missing.map Component.name)
    (rest : List Component) : tree.follow maxLinks [] (front ++ more ++ rest) = none := by
  cases missing with
  | nil => exact absurd (List.prefix_nil.mp begins) nonempty
  | cons name names =>
      obtain ⟨first, more, rfl⟩ := List.exists_cons_of_ne_nil nonempty
      obtain ⟨rfl, -⟩ := List.cons_prefix_cons.mp begins
      rw [List.append_assoc, List.cons_append]
      exact follow_append_name arrives leadsTo.inside (leadsTo.free name rfl) _

theorem locationFor_eq : tree.locationFor path = place ++ missing := by
  rcases leadsTo.leads with ⟨front, spells, arrives⟩
  refine locationFor_of_longest spells arrives fun more nonempty begins => ?_
  simpa using leadsTo.follow_eq_none arrives nonempty begins []

theorem locate?_eq_some (empty : missing = []) : tree.locate? path = some place := by
  rcases leadsTo.leads with ⟨front, spells, arrives⟩
  rwa [locate?, spells, empty, List.map_nil, List.append_nil]

theorem entryLocation?_bind_node? (nonempty : missing ≠ []) :
    (tree.entryLocation? path).bind tree.node? = none := by
  obtain ⟨above, name, rfl⟩ : ∃ above name, missing = above ++ [name] :=
    ⟨_, _, (List.dropLast_concat_getLast nonempty).symm⟩
  rcases leadsTo.leads with ⟨front, spells, arrives⟩
  have last : path.components = front ++ above.map Component.name ++ [.name name] := by
    simpa using spells
  rw [entryLocation?, last, List.getLast?_concat]
  simp only [List.dropLast_concat]
  by_cases empty : above = []
  · subst empty
    rw [List.map_nil, List.append_nil, arrives]
    exact leadsTo.free name rfl
  · have lost := leadsTo.follow_eq_none arrives (by simpa using empty)
      ((List.prefix_append above [name]).map Component.name) []
    rw [List.append_nil] at lost
    rw [lost]
    rfl

theorem node?_makeDirectory (other : Location) :
    (tree.makeDirectory path).node? other =
      (tree.node? other).or (if other <+: place ++ missing then some .directory else none) := by
  rw [makeDirectory, leadsTo.locationFor_eq, node?_withDirectories]

theorem keeps_makeDirectory : tree.Keeps (tree.makeDirectory path) := by
  intro location node found
  rw [leadsTo.node?_makeDirectory, found]
  exact .inl rfl

section WellFormed

variable (wellFormed : tree.WellFormed)
include wellFormed

/-- There is nothing at the missing names and below them. -/
theorem node?_eq_none {more : List String} (nonempty : more ≠ []) (begins : more <+: missing)
    (rest : List String) : tree.node? (place ++ more ++ rest) = none := by
  cases missing with
  | nil => exact absurd (List.prefix_nil.mp begins) nonempty
  | cons name names =>
      obtain ⟨first, more, rfl⟩ := List.exists_cons_of_ne_nil nonempty
      obtain ⟨rfl, -⟩ := List.cons_prefix_cons.mp begins
      have free := leadsTo.free first rfl
      rw [← Option.not_isSome_iff_eq_none, List.append_assoc, List.cons_append, List.append_cons]
      intro present
      by_cases last : more ++ rest = []
      · simp [last, free] at present
      · have directory := wellFormed.directory_above last present
        simp [free] at directory

/-- The directories on the way exist once the last of them is made. -/
theorem directory_makeDirectory {above : Location} (begins : above <+: place ++ missing) :
    (tree.makeDirectory path).node? above = some .directory := by
  rw [leadsTo.node?_makeDirectory, if_pos begins]
  have old : ∀ node ∈ tree.node? above, node = .directory := by
    intro node found
    obtain ⟨rest, split⟩ := begins
    rcases List.append_eq_append_iff.mp split with ⟨outer, rfl, -⟩ | ⟨further, rfl, shape⟩
    · have directory := wellFormed.directory_of_prefix leadsTo.inside (List.prefix_append above outer)
      exact Option.some.inj (found.symm.trans directory)
    · by_cases empty : further = []
      · rw [empty, List.append_nil] at found
        exact Option.some.inj (found.symm.trans leadsTo.inside)
      · have gone := leadsTo.node?_eq_none wellFormed empty (shape ▸ List.prefix_append _ _) []
        rw [List.append_nil] at gone
        rw [Option.mem_def, gone] at found
        simp at found
  cases found : tree.node? above with
  | none => rfl
  | some node => rw [old node found]; rfl

theorem locate?_makeDirectory : (tree.makeDirectory path).locate? path = some (place ++ missing) := by
  rcases leadsTo.leads with ⟨front, spells, arrives⟩
  have stillArrives := leadsTo.keeps_makeDirectory.follow_eq_some arrives
  have inside := leadsTo.directory_makeDirectory wellFormed (List.prefix_append place missing)
  rw [locate?, spells]
  refine follow_append_names stillArrives inside (walk_of_directories fun above begins _ => ?_)
  exact leadsTo.directory_makeDirectory wellFormed ((List.prefix_append_right_inj place).mpr begins)

end WellFormed

end LeadsTo

/-! ## Files that are written -/

theorem node?_write {tree : FileTree} {path : Path} {location : Location}
    (creates : tree.locationFor path = location) (nonempty : location ≠ []) (content : FileContent)
    (other : Location) :
    (tree.write path content).node? other =
      if other = location then some (.file content)
      else (tree.node? other).or (if other <+: location.dropLast then some .directory else none) := by
  rw [write, creates]
  exact node?_withFile_some tree nonempty content other

theorem keeps_write {tree : FileTree} {path : Path} {location : Location}
    (creates : tree.locationFor path = location) (nonempty : location ≠ [])
    (free : ∀ node ∈ tree.node? location, node.isFile) (content : FileContent) :
    tree.Keeps (tree.write path content) := by
  intro other node found
  rw [node?_write creates nonempty]
  split
  · rename_i same
    exact .inr ⟨free node (same ▸ found), content, rfl⟩
  · rw [found]
    exact .inl rfl

theorem content?_eq_some_iff {tree : FileTree} {path : Path} {content : FileContent} :
    tree.content? path = some content ↔
      ∃ location, tree.locate? path = some location ∧ tree.node? location = some (.file content) := by
  rw [content?, find?]
  cases located : tree.locate? path with
  | none => simp
  | some location =>
      rw [Option.bind_some]
      cases found : tree.node? location with
      | none => simp [found]
      | some node => cases node <;> simp [found]

/-- A file is written where its path leads to, through links also. -/
theorem content?_write_of_isSome {tree : FileTree} {path : Path}
    (present : (tree.content? path).isSome) (content : FileContent) :
    (tree.write path content).content? path = some content := by
  obtain ⟨before, held⟩ := Option.isSome_iff_exists.mp present
  rcases content?_eq_some_iff.mp held with ⟨location, located, found⟩
  have creates := locationFor_of_locate? located
  have nonempty : location ≠ [] := by
    rintro rfl
    simp at found
  have keeps := keeps_write creates nonempty (by simp [found, FileNode.isFile]) content
  refine content?_eq_some_iff.mpr ⟨location, keeps.locate?_eq_some located, ?_⟩
  rw [node?_write creates nonempty, if_pos rfl]

/-- A file is written into a directory that has nothing of its name. -/
theorem content?_write_of_eq_none {tree : FileTree} {directory path : Path} {home : Location}
    {name : String} (spells : path.components = directory.components ++ [.name name])
    (located : tree.locate? directory = some home) (inside : tree.node? home = some .directory)
    (gone : tree.node? (home ++ [name]) = none) (content : FileContent) :
    (tree.write path content).content? path = some content := by
  have leadsTo : tree.LeadsTo path home [name] :=
    ⟨⟨directory.components, spells, located⟩, inside, by simpa using gone⟩
  have creates := leadsTo.locationFor_eq
  have nonempty : home ++ [name] ≠ [] := by simp
  have keeps := keeps_write creates nonempty (by simp [gone]) content
  have written := node?_write creates nonempty content
  have apart : home ≠ home ++ [name] := by simp
  have stillInside : (tree.write path content).node? home = some .directory := by
    rw [written, if_neg apart, inside]
    rfl
  have arrives : (tree.write path content).walk home ([name].map Component.name) =
      .arrived (home ++ [name]) := by
    simp [walk, written (home ++ [name])]
  refine content?_eq_some_iff.mpr ⟨home ++ [name], ?_, by rw [written, if_pos rfl]⟩
  rw [locate?, spells]
  exact follow_append_names (keeps.locate?_eq_some located) stillInside arrives

end AutoImport.FileTree
