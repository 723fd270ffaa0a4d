import AutoImport.Proofs.Files.Tree

/-!
# Changes of one file

A file can be written or deleted where no link and no other file is on the way. This keeps a tree
well-formed and leaves all other files alone.
-/

namespace AutoImport.FileTree

open Component

/-- The tree after a file at a location is written, with the directories above it, or deleted. -/
def withFile (tree : FileTree) (location : Location) : Option FileContent → FileTree
  | some content => (tree.withDirectories location.dropLast).put location (.file content)
  | none => ⟨tree.entries.filter fun entry => entry.1 != location⟩

theorem mem_beginnings {α : Type} {start items : List α} :
    start ∈ beginnings items ↔ start <+: items := by
  rw [beginnings, List.mem_map]
  constructor
  · rintro ⟨count, -, rfl⟩
    exact List.take_prefix count items
  · intro begins
    refine ⟨start.length, ?_, (List.prefix_iff_eq_take.mp begins).symm⟩
    simpa using Nat.lt_succ_of_le begins.length_le

/-- A file can be written or deleted at a location: only a file is there, if anything, and above it
there are only directories. What is deleted is there. -/
structure AllowsFile (tree : FileTree) (location : Location) (content? : Option FileContent) : Prop where
  nonempty : location ≠ []
  named : ∀ name ∈ location, IsEntryName name
  free : ∀ node ∈ tree.node? location, node.isFile
  above : ∀ directory ∈ beginnings location.dropLast, ∀ node ∈ tree.node? directory,
    node = .directory
  present : content? = none → (tree.node? location).isSome

instance (tree : FileTree) (location : Location) (content? : Option FileContent) :
    Decidable (tree.AllowsFile location content?) :=
  decidable_of_iff
    (location ≠ [] ∧ (∀ name ∈ location, IsEntryName name) ∧
      (∀ node ∈ tree.node? location, node.isFile) ∧
      (∀ directory ∈ beginnings location.dropLast, ∀ node ∈ tree.node? directory,
        node = .directory) ∧
      (content? = none → (tree.node? location).isSome))
    ⟨fun ⟨nonempty, named, free, above, present⟩ => ⟨nonempty, named, free, above, present⟩,
      fun ⟨nonempty, named, free, above, present⟩ => ⟨nonempty, named, free, above, present⟩⟩

theorem AllowsFile.eq_directory {tree : FileTree} {location : Location}
    {content? : Option FileContent} (allowed : tree.AllowsFile location content?)
    {directory : Location} (above : directory <+: location) (apart : directory ≠ location)
    {node : FileNode} (found : tree.node? directory = some node) : node = .directory := by
  refine allowed.above directory (mem_beginnings.mpr ?_) node found
  rw [← List.dropLast_concat_getLast allowed.nonempty] at above apart
  exact (List.prefix_concat_iff.mp above).resolve_left apart

theorem lookup_filter_ne (entries : List (Location × FileNode)) (location other : Location) :
    (entries.filter fun entry => entry.1 != location).lookup other =
      if other = location then none else entries.lookup other := by
  induction entries with
  | nil => simp
  | cons entry entries ih =>
      rw [List.filter_cons]
      by_cases there : entry.1 = location
      · rw [if_neg (by simp [there]), ih]
        split
        · rfl
        · rename_i apart
          rw [List.lookup_cons, beq_eq_false_iff_ne.mpr (there ▸ apart)]
      · rw [if_pos (by simp [there]), List.lookup_cons, List.lookup_cons, ih]
        by_cases here : other = entry.1
        · simp [here, there]
        · rw [beq_eq_false_iff_ne.mpr here]

theorem node?_put {tree : FileTree} {location : Location} (nonempty : location ≠ []) (node : FileNode)
    (other : Location) :
    (tree.put location node).node? other =
      if other = location then some node else tree.node? other := by
  by_cases empty : other = []
  · subst empty
    rw [node?_nil, node?_nil, if_neg (Ne.symm nonempty)]
  · rw [node?_of_ne_nil empty, node?_of_ne_nil empty, put, List.lookup_append, lookup_filter_ne]
    split
    · rename_i same
      simp [same]
    · rename_i apart
      rw [List.lookup_cons, beq_eq_false_iff_ne.mpr apart]
      simp

/-- What is kept whenever a missing directory is added is kept when all of them are. -/
theorem withDirectories_induction {motive : FileTree → Prop} {tree : FileTree} {location : Location}
    (start : motive tree)
    (added : ∀ reached directory, motive reached → directory <+: location → directory ≠ [] →
      reached.node? directory = none → motive (reached.put directory .directory)) :
    motive (tree.withDirectories location) := by
  have above : ∀ directory ∈ beginnings location, directory <+: location :=
    fun _ member => mem_beginnings.mp member
  rw [withDirectories]
  generalize beginnings location = directories at above ⊢
  induction directories generalizing tree with
  | nil => exact start
  | cons directory directories ih =>
      rw [List.foldl_cons]
      refine ih ?_ fun other member => above other (List.mem_cons_of_mem _ member)
      split
      · exact start
      · rename_i missing
        refine added tree directory start (above directory List.mem_cons_self) ?_ (by simpa using missing)
        rintro rfl
        simp at missing

/-- Directories are added where there is nothing yet. -/
theorem node?_withDirectories (tree : FileTree) (location other : Location) :
    (tree.withDirectories location).node? other =
      (tree.node? other).or (if other <+: location then some .directory else none) := by
  have adds (directories : List Location) (tree : FileTree) :
      (directories.foldl (fun tree directory =>
        if (tree.node? directory).isSome then tree else tree.put directory .directory) tree).node? other =
        (tree.node? other).or (if other ∈ directories then some .directory else none) := by
    induction directories generalizing tree with
    | nil => simp
    | cons directory directories ih =>
        rw [List.foldl_cons, ih]
        split
        · rename_i present
          by_cases here : other = directory
          · subst here
            obtain ⟨node, found⟩ := Option.isSome_iff_exists.mp present
            simp [found]
          · simp [here]
        · rename_i missing
          have nonempty : directory ≠ [] := by
            rintro rfl
            simp at missing
          rw [node?_put nonempty]
          by_cases here : other = directory
          · subst here
            simp_all
          · simp [here]
  rw [withDirectories, adds]
  simp only [mem_beginnings]

theorem node?_withFile_some (tree : FileTree) {location : Location} (nonempty : location ≠ [])
    (content : FileContent) (other : Location) :
    (tree.withFile location (some content)).node? other =
      if other = location then some (.file content)
      else (tree.node? other).or (if other <+: location.dropLast then some .directory else none) := by
  rw [withFile, node?_put nonempty, node?_withDirectories]

theorem node?_withFile_none (tree : FileTree) {location : Location} (nonempty : location ≠ [])
    (other : Location) :
    (tree.withFile location none).node? other = if other = location then none else tree.node? other := by
  by_cases empty : other = []
  · subst empty
    rw [node?_nil, node?_nil, if_neg (Ne.symm nonempty)]
  · rw [node?_of_ne_nil empty, node?_of_ne_nil empty, withFile, lookup_filter_ne]

section Change

variable {tree : FileTree} {location : Location} {content? : Option FileContent}

/-- Afterwards the file is there with its content, or nothing is. -/
theorem AllowsFile.node?_withFile_self (allowed : tree.AllowsFile location content?) :
    (tree.withFile location content?).node? location = content?.map FileNode.file := by
  cases content? with
  | none => rw [node?_withFile_none tree allowed.nonempty, if_pos rfl, Option.map_none]
  | some content => rw [node?_withFile_some tree allowed.nonempty, if_pos rfl, Option.map_some]

/-- All other entries are as they were, and directories may have been added. -/
theorem AllowsFile.node?_withFile_of_ne (allowed : tree.AllowsFile location content?)
    {other : Location} (apart : other ≠ location) :
    (tree.withFile location content?).node? other = tree.node? other ∨
      (tree.node? other = none ∧ other <+: location.dropLast ∧
        (tree.withFile location content?).node? other = some .directory) := by
  cases content? with
  | none => exact .inl (by rw [node?_withFile_none tree allowed.nonempty, if_neg apart])
  | some content =>
      rw [node?_withFile_some tree allowed.nonempty, if_neg apart]
      cases before : tree.node? other with
      | some node => exact .inl rfl
      | none =>
          by_cases above : other <+: location.dropLast
          · exact .inr ⟨rfl, above, by rw [if_pos above, Option.none_or]⟩
          · exact .inl (by rw [if_neg above, Option.none_or])

/-- No other file comes, goes or changes. -/
theorem AllowsFile.file_withFile_of_ne (allowed : tree.AllowsFile location content?)
    {other : Location} (apart : other ≠ location) (content : FileContent) :
    (tree.withFile location content?).node? other = some (.file content) ↔
      tree.node? other = some (.file content) := by
  rcases allowed.node?_withFile_of_ne apart with same | ⟨missing, -, added⟩
  · rw [same]
  · simp [missing, added]

theorem AllowsFile.above_withFile (allowed : tree.AllowsFile location content?)
    {directory : Location} (above : directory <+: location) (apart : directory ≠ location)
    {node : FileNode} (found : (tree.withFile location content?).node? directory = some node) :
    node = .directory := by
  rcases allowed.node?_withFile_of_ne apart with same | ⟨-, -, added⟩
  · exact allowed.eq_directory above apart (same ▸ found)
  · exact Option.some.inj (found.symm.trans added)

theorem nodup_put {tree : FileTree} (distinct : (tree.entries.map Prod.fst).Nodup)
    (location : Location) (node : FileNode) :
    ((tree.put location node).entries.map Prod.fst).Nodup := by
  rw [put, List.map_append, List.nodup_append]
  refine ⟨distinct.sublist (List.filter_sublist.map _), by simp, ?_⟩
  intro other member place single
  obtain ⟨entry, kept, rfl⟩ := List.mem_map.mp member
  obtain rfl : place = location := by simpa using single
  simpa using (List.mem_filter.mp kept).2

theorem nodup_withFile (distinct : (tree.entries.map Prod.fst).Nodup) (location : Location)
    (content? : Option FileContent) :
    ((tree.withFile location content?).entries.map Prod.fst).Nodup := by
  cases content? with
  | none => exact distinct.sublist (List.filter_sublist.map _)
  | some content =>
      refine nodup_put ?_ _ _
      apply withDirectories_induction (motive := fun tree => (tree.entries.map Prod.fst).Nodup) distinct
      exact fun reached directory kept _ _ _ => nodup_put kept directory _

theorem mem_keys_put {tree : FileTree} {location key : Location} {node : FileNode}
    (member : key ∈ (tree.put location node).entries.map Prod.fst) :
    key = location ∨ key ∈ tree.entries.map Prod.fst := by
  rw [put, List.map_append, List.mem_append] at member
  rcases member with old | new
  · exact .inr ((List.filter_sublist.map _).subset old)
  · exact .inl (by simpa using new)

/-- The locations with entries afterwards. -/
theorem mem_keys_withFile {key : Location} (content : FileContent)
    (member : key ∈ (tree.withFile location (some content)).entries.map Prod.fst) :
    key = location ∨ key ∈ tree.entries.map Prod.fst ∨
      (key <+: location.dropLast ∧ tree.node? key = none) := by
  -- What is missing later was missing before, so an added directory is one that the tree did not have.
  let addsTo (after : FileTree) : Prop :=
    (∀ other, after.node? other = none → tree.node? other = none) ∧
      ∀ other ∈ after.entries.map Prod.fst, other ∈ tree.entries.map Prod.fst ∨
        (other <+: location.dropLast ∧ tree.node? other = none)
  have added : addsTo (tree.withDirectories location.dropLast) := by
    refine withDirectories_induction ⟨fun _ missing => missing, fun _ member => .inl member⟩ ?_
    rintro reached directory ⟨earlier, known⟩ above nonempty missing
    refine ⟨fun other stillMissing => ?_, fun other member => ?_⟩
    · rw [node?_put nonempty] at stillMissing
      split at stillMissing
      · simp at stillMissing
      · exact earlier other stillMissing
    · rcases mem_keys_put member with rfl | older
      · exact .inr ⟨above, earlier _ missing⟩
      · exact known other older
  exact (mem_keys_put member).imp_right (added.2 key)

theorem AllowsFile.directory_withFile {content : FileContent}
    (allowed : tree.AllowsFile location (some content)) {directory : Location}
    (above : directory <+: location.dropLast) :
    (tree.withFile location (some content)).node? directory = some .directory := by
  have apart : directory ≠ location := by
    rintro rfl
    have shorter := above.length_le
    have positive := List.length_pos_iff.mpr allowed.nonempty
    rw [List.length_dropLast] at shorter
    omega
  rw [node?_withFile_some tree allowed.nonempty, if_neg apart]
  cases before : tree.node? directory with
  | none => simp [above]
  | some node =>
      obtain rfl := allowed.above directory (mem_beginnings.mpr above) node before
      rfl

/-- A tree stays well-formed when a file that it allows is written or deleted. -/
theorem WellFormed.withFile (wellFormed : tree.WellFormed)
    (allowed : tree.AllowsFile location content?) :
    (tree.withFile location content?).WellFormed := by
  have kept {key : Location} (old : key ∈ tree.entries.map Prod.fst) :
      (∀ name ∈ key, IsEntryName name) ∧ key ≠ [] ∧
        (tree.withFile location content?).node? key.dropLast = some .directory := by
    obtain ⟨entry, member, rfl⟩ := List.mem_map.mp old
    obtain ⟨nonempty, directory⟩ := wellFormed.inside entry member
    have apart : entry.1.dropLast ≠ location := by
      intro same
      have isFile := allowed.free _ (same ▸ directory)
      simp [FileNode.isFile] at isFile
    refine ⟨wellFormed.named entry member, nonempty, ?_⟩
    rcases allowed.node?_withFile_of_ne apart with same | ⟨missing, -⟩
    · rw [same, directory]
    · simp [directory] at missing
  have everywhere {key : Location}
      (member : key ∈ (tree.withFile location content?).entries.map Prod.fst) :
      (∀ name ∈ key, IsEntryName name) ∧ key ≠ [] ∧
        (tree.withFile location content?).node? key.dropLast = some .directory := by
    cases content? with
    | none => exact kept ((List.filter_sublist.map _).subset member)
    | some content =>
        rcases mem_keys_withFile content member with rfl | old | ⟨above, missing⟩
        · exact ⟨allowed.named, allowed.nonempty, allowed.directory_withFile (List.prefix_refl _)⟩
        · exact kept old
        · refine ⟨fun name inside => ?_, ?_, ?_⟩
          · exact allowed.named name ((above.trans (List.dropLast_prefix _)).subset inside)
          · rintro rfl
            simp at missing
          · exact allowed.directory_withFile ((List.dropLast_prefix _).trans above)
  exact ⟨nodup_withFile wellFormed.distinct location content?,
    fun entry member => (everywhere (List.mem_map_of_mem member)).1,
    fun entry member => (everywhere (List.mem_map_of_mem member)).2⟩

end Change

end AutoImport.FileTree
