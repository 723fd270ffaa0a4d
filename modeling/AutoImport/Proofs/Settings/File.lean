import AutoImport.Proofs.Files.Create
import AutoImport.Proofs.Settings.Toml
import AutoImport.Settings.File

/-!
# Settings that survive a save

What is saved is loaded again, unless a number is too large; then the file of the settings is as it was.
-/

namespace AutoImport.Settings

open FileTree

/-! ## The place of the settings -/

theorem directoryIn_spelling_ne_empty (root : Path) : (directoryIn root).spelling ≠ "" := by
  have isAbsolute : (Path.mk directoryName).isAbsolute = false := by decide
  rw [directoryIn, Path.join, isAbsolute]
  cases empty : root.spelling.isEmpty with
  | true => exact (by decide : directoryName ≠ "")
  | false =>
      have nonempty : root.spelling ≠ "" := by simpa using empty
      simp only [Bool.or_self, Bool.false_eq_true, reduceIte]
      split <;> simp [nonempty]

theorem components_fileIn (root : Path) :
    (fileIn root).components = (directoryIn root).components ++ [.name "config.toml"] :=
  Path.components_join (directoryIn_spelling_ne_empty root) (by decide) (by decide)

theorem entryLocation?_fileIn (tree : FileTree) (root : Path) :
    tree.entryLocation? (fileIn root) =
      (tree.locate? (directoryIn root)).map fun home => home ++ ["config.toml"] := by
  rw [entryLocation?, components_fileIn, List.getLast?_concat]
  simp only [List.dropLast_concat]
  rfl

/-- The files allow that settings are saved: their directory is there or can be made, and their file holds
anything or nothing has its name. -/
structure CanSave (tree : FileTree) (root : Path) : Prop where
  wellFormed : tree.WellFormed
  directory : ∃ place missing, tree.LeadsTo (directoryIn root) place missing
  file : (tree.content? (fileIn root)).isSome ∨
    (tree.entryLocation? (fileIn root)).bind tree.node? = none

theorem canMakeDirectory_of_leadsTo {tree : FileTree} {path : Path} {place : Location}
    {missing : List String} (leadsTo : tree.LeadsTo path place missing) :
    canMakeDirectory tree path = true := by
  rw [canMakeDirectory, Bool.or_eq_true]
  by_cases empty : missing = []
  · refine .inl ?_
    rw [isDirectory, find?, leadsTo.locate?_eq_some empty, Option.bind_some, leadsTo.inside]
    rfl
  · exact .inr (by rw [leadsTo.entryLocation?_bind_node? empty]; rfl)

/-! ## The files once the directory is made -/

section Made

variable {tree : FileTree} {root : Path} {place : Location} {missing : List String}
  (leadsTo : tree.LeadsTo (directoryIn root) place missing)
include leadsTo

theorem node?_makeDirectory_fileIn :
    (tree.makeDirectory (directoryIn root)).node? (place ++ missing ++ ["config.toml"]) =
      tree.node? (place ++ missing ++ ["config.toml"]) := by
  have longer : ¬ place ++ missing ++ ["config.toml"] <+: place ++ missing := by
    intro begins
    have bounded := begins.length_le
    simp only [List.length_append, List.length_singleton] at bounded
    omega
  rw [leadsTo.node?_makeDirectory, if_neg longer, Option.or_none]

variable (wellFormed : tree.WellFormed)
include wellFormed

/-- Where the directory of the settings was there before, nothing has changed. -/
theorem node?_makeDirectory_of_nil (empty : missing = []) (location : Location) :
    (tree.makeDirectory (directoryIn root)).node? location = tree.node? location := by
  by_cases above : location <+: place ++ missing
  · rw [leadsTo.directory_makeDirectory wellFormed above]
    rw [empty, List.append_nil] at above
    exact (wellFormed.directory_of_prefix leadsTo.inside above).symm
  · rw [leadsTo.node?_makeDirectory, if_neg above, Option.or_none]

/-- Where it was not, the file of the settings is not there before and after. -/
theorem node?_fileIn_of_ne_nil (nonempty : missing ≠ []) :
    tree.node? (place ++ missing ++ ["config.toml"]) = none :=
  leadsTo.node?_eq_none wellFormed nonempty (List.prefix_refl _) _

theorem locate?_fileIn_of_eq_none
    (gone : tree.node? (place ++ missing ++ ["config.toml"]) = none) :
    (tree.makeDirectory (directoryIn root)).locate? (fileIn root) = none := by
  have inside := leadsTo.directory_makeDirectory wellFormed (List.prefix_refl _)
  have goneAfter := (node?_makeDirectory_fileIn leadsTo).trans gone
  rw [locate?, components_fileIn]
  exact follow_append_name (leadsTo.locate?_makeDirectory wellFormed) inside goneAfter []

/-- Making the directory changes nothing about the file of the settings. -/
theorem locate?_makeDirectory_fileIn :
    (tree.makeDirectory (directoryIn root)).locate? (fileIn root) = tree.locate? (fileIn root) := by
  by_cases empty : missing = []
  · exact locate?_congr (node?_makeDirectory_of_nil leadsTo wellFormed empty) _
  · rw [locate?_fileIn_of_eq_none leadsTo wellFormed (node?_fileIn_of_ne_nil leadsTo wellFormed empty)]
    rcases leadsTo.leads with ⟨front, spells, arrives⟩
    rw [locate?, components_fileIn, spells]
    exact (leadsTo.follow_eq_none arrives (by simpa using empty) (List.prefix_refl _) _).symm

theorem find?_makeDirectory_fileIn :
    (tree.makeDirectory (directoryIn root)).find? (fileIn root) = tree.find? (fileIn root) := by
  have located := locate?_makeDirectory_fileIn leadsTo wellFormed
  by_cases empty : missing = []
  · rw [find?, find?, located, funext (node?_makeDirectory_of_nil leadsTo wellFormed empty)]
  · have lost := locate?_fileIn_of_eq_none leadsTo wellFormed
      (node?_fileIn_of_ne_nil leadsTo wellFormed empty)
    rw [find?, find?, ← located, lost, Option.bind_none, Option.bind_none]

end Made

section Saves

variable {tree : FileTree} {root : Path} (canSave : CanSave tree root)
include canSave

/-- The file holds something or is missing also once the directory is made. -/
theorem CanSave.file_makeDirectory {place : Location} {missing : List String}
    (leadsTo : tree.LeadsTo (directoryIn root) place missing) :
    ((tree.makeDirectory (directoryIn root)).content? (fileIn root)).isSome ∨
      (tree.makeDirectory (directoryIn root)).node? (place ++ missing ++ ["config.toml"]) = none := by
  rw [content?, find?_makeDirectory_fileIn leadsTo canSave.wellFormed, ← content?,
    node?_makeDirectory_fileIn leadsTo]
  refine canSave.file.imp_right fun gone => ?_
  by_cases empty : missing = []
  · rw [entryLocation?_fileIn, leadsTo.locate?_eq_some empty] at gone
    rw [empty, List.append_nil]
    exact gone
  · exact node?_fileIn_of_ne_nil leadsTo canSave.wellFormed empty

/-- A text that is written into the file of the settings is what it holds then. -/
theorem CanSave.content?_write (content : FileContent) :
    ((tree.makeDirectory (directoryIn root)).write (fileIn root) content).content? (fileIn root) =
      some content := by
  rcases canSave.directory with ⟨place, missing, leadsTo⟩
  rcases canSave.file_makeDirectory leadsTo with present | gone
  · exact content?_write_of_isSome present content
  · exact content?_write_of_eq_none (components_fileIn root)
      (leadsTo.locate?_makeDirectory canSave.wellFormed)
      (leadsTo.directory_makeDirectory canSave.wellFormed (List.prefix_refl _)) gone content

theorem CanSave.isDirectory_fileIn :
    (tree.makeDirectory (directoryIn root)).isDirectory (fileIn root) = false := by
  rcases canSave.directory with ⟨place, missing, leadsTo⟩
  rcases canSave.file_makeDirectory leadsTo with present | gone
  · obtain ⟨content, held⟩ := Option.isSome_iff_exists.mp present
    rcases content?_eq_some_iff.mp held with ⟨location, located, found⟩
    rw [isDirectory, find?, located, Option.bind_some, found]
    rfl
  · rw [node?_makeDirectory_fileIn leadsTo] at gone
    rw [isDirectory, find?, locate?_fileIn_of_eq_none leadsTo canSave.wellFormed gone]
    rfl

theorem CanSave.save_eq (settings : Settings) :
    settings.save tree root =
      match settings.toText? with
      | none => (.error .numberTooLarge, tree.makeDirectory (directoryIn root))
      | some text =>
        (.ok (), (tree.makeDirectory (directoryIn root)).write (fileIn root) (.text text)) := by
  rcases canSave.directory with ⟨place, missing, leadsTo⟩
  unfold save
  cases settings.toText? <;>
    simp only [canMakeDirectory_of_leadsTo leadsTo, canSave.isDirectory_fileIn, Bool.not_true,
      Bool.false_eq_true, reduceIte]

end Saves

theorem hasEntry_of_content? {tree : FileTree} {path : Path} {content : FileContent}
    (held : tree.content? path = some content) : tree.hasEntry path = true := by
  rcases content?_eq_some_iff.mp held with ⟨location, located, -⟩
  rw [hasEntry, located]
  rfl

/-- Where settings can be saved, saving them fails exactly when a number in them is too large, and then the
file of the settings is as it was. Otherwise they are what is loaded afterwards. -/
theorem load_save {tree : FileTree} {root : Path} (canSave : CanSave tree root) (settings : Settings) :
    ((∃ error, (settings.save tree root).1 = .error error) ↔ settings.HasLargeNumber) ∧
      (settings.HasLargeNumber →
        (settings.save tree root).1 = .error .numberTooLarge ∧
          (settings.save tree root).2.content? (fileIn root) = tree.content? (fileIn root) ∧
          (settings.save tree root).2.hasEntry (fileIn root) = tree.hasEntry (fileIn root)) ∧
      (¬ settings.HasLargeNumber →
        (settings.save tree root).1 = .ok () ∧ load (settings.save tree root).2 root = .ok settings) := by
  have saved := canSave.save_eq settings
  by_cases large : settings.HasLargeNumber
  · rcases canSave.directory with ⟨place, missing, leadsTo⟩
    rw [toText?_eq_none large] at saved
    have located := locate?_makeDirectory_fileIn leadsTo canSave.wellFormed
    have found := find?_makeDirectory_fileIn leadsTo canSave.wellFormed
    rw [saved]
    refine ⟨⟨fun _ => large, fun _ => ⟨_, rfl⟩⟩, fun _ => ⟨rfl, ?_, ?_⟩, fun small => absurd large small⟩
    · rw [content?, found, ← content?]
    · rw [hasEntry, located, ← hasEntry]
  · rw [toText?_eq_some large] at saved
    have held := canSave.content?_write (.text (String.ofList (Toml.documentOf settings.written)))
    rw [saved]
    refine ⟨⟨by simp, fun other => absurd other large⟩, fun other => absurd other large,
      fun _ => ⟨rfl, ?_⟩⟩
    simp only [load, isInitialized, hasEntry_of_content? held, reduceIte, held, Option.bind_some,
      FileContent.text?, ofText?_written large]

/-- A file of bytes that are no text is replaced by settings with awkward texts, and stays where there is a
number that is too large. -/
theorem load_save_over_bytes :
    let tree : FileTree := ⟨[(["w"], .directory), (["w", ".tsimport"], .directory),
      (["w", ".tsimport", "config.toml"], .file (.bytes [255]))]⟩
    let settings (threads : Nat) : Settings :=
      { Settings.standard with
        scan := ⟨["a\"'", "\r\n\\"], [], false, some threads⟩ }
    load ((settings 4).save tree ⟨"/w"⟩).2 ⟨"/w"⟩ = .ok (settings 4) ∧
      ((settings (largestNumber + 1)).save tree ⟨"/w"⟩).2.content? ⟨"/w/.tsimport/config.toml"⟩ =
        some (.bytes [255]) := by
  intro tree settings
  have leadsTo : tree.LeadsTo (directoryIn ⟨"/w"⟩) ["w", ".tsimport"] [] :=
    ⟨⟨[.root, .name "w", .name ".tsimport"], by decide +kernel, by decide +kernel⟩,
      by decide +kernel, by simp⟩
  have canSave : CanSave tree ⟨"/w"⟩ := ⟨by decide +kernel, ⟨_, _, leadsTo⟩, .inl (by decide +kernel)⟩
  have small : ¬ (settings 4).HasLargeNumber := by
    rintro (⟨threads, here, large⟩ | large)
    · obtain rfl : 4 = threads := Option.some.inj here
      exact absurd large (by decide)
    · exact absurd large (by decide)
  have large : (settings (largestNumber + 1)).HasLargeNumber := .inl ⟨_, rfl, Nat.lt_succ_self _⟩
  refine ⟨((load_save canSave (settings 4)).2.2 small).2, ?_⟩
  exact ((load_save canSave (settings (largestNumber + 1))).2.1 large).2.1.trans (by decide +kernel)

end AutoImport.Settings
