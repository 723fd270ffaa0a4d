import AutoImport.Engine.Query
import AutoImport.Proofs.Indexer.Update

/-!
# Edits of a workspace

While files of a workspace are written and deleted one by one, and each of them is read again, the index
holds at every moment what a full scan would put there. The ignore files and the manifests of packages
have to stay as they read when the index was filled: their effects are only taken in by a full scan.
-/

namespace AutoImport

open Component

/-- One file is written or deleted, and the engine is told of it. -/
structure FileEdit where
  location : Location
  /-- What the file holds afterwards, unless it is deleted. -/
  content? : Option FileContent
  /-- The path by which the engine is told of the file. -/
  path : Path
  deriving Repr

namespace FileEdit

/-- A tree of files after an edit. -/
def apply (edit : FileEdit) (tree : FileTree) : FileTree :=
  tree.withFile edit.location edit.content?

/-- The tree of files after edits. -/
def applyAll (tree : FileTree) (edits : List FileEdit) : FileTree :=
  edits.foldl (fun tree edit => edit.apply tree) tree

/-- An edit of a single file that does not touch the configuration, and of which the engine is told.
Afterwards it can be told of each file, without walking, whether a walk finds it. -/
structure Suits (workspace : Workspace) (tree : FileTree) (edit : FileEdit) : Prop where
  allowed : tree.AllowsFile edit.location edit.content?
  configured : tree.SameConfiguration (edit.apply tree)
  leads : workspace.LeadsTo (edit.apply tree) edit.path edit.location
  agreed : workspace.AcceptsFound (edit.apply tree)

/-- In a tree without links it can be seen from the entries whether an edit suits. -/
theorem suits_of_linkless {workspace : Workspace} {tree : FileTree} {edit : FileEdit}
    (wellFormed : tree.WellFormed) (linkless : tree.IsLinkless)
    (allowed : tree.AllowsFile edit.location edit.content?) (other : ¬edit.location.IsConfiguration)
    (leads : workspace.LeadsTo (edit.apply tree) edit.path edit.location)
    (agreed : ∀ entry ∈ (edit.apply tree).entries,
      ∀ names ∈ Path.dropStart? workspace.root entry.1, entry.2.isFile →
        workspace.accepts (edit.apply tree) (Path.ofNames names) =
          (workspace.reaches (edit.apply tree) names false &&
            workspace.filter.accepts (Path.ofNames names))) :
    edit.Suits workspace tree :=
  ⟨allowed, linkless.sameConfiguration_withFile wellFormed allowed other, leads,
    Workspace.acceptsFound_of_entries (wellFormed.withFile allowed) agreed⟩

/-- Each edit suits the tree that the edits before it lead to. -/
def SuitAll (workspace : Workspace) : FileTree → List FileEdit → Prop
  | _, [] => True
  | tree, edit :: edits => edit.Suits workspace tree ∧ SuitAll workspace (edit.apply tree) edits

end FileEdit

namespace Engine

/-- An engine that was told of each edit when it had happened. -/
def afterEdits : FileTree → List FileEdit → Engine → Engine
  | _, [], engine => engine
  | tree, edit :: edits, engine =>
    afterEdits (edit.apply tree) edits (engine.scanFile (edit.apply tree) edit.path).2

/-- An engine filled its index anew and came to the end, in whichever order it took the files. -/
structure Reindexed (tree : FileTree) (before after : Engine) : Prop where
  enabled : before.isEnabled = true
  settings : after.settings = before.settings
  rebuilt : Indexer.Rebuilt tree before.indexer after.indexer

/-- Filling the index with nothing else going on comes to the end. -/
theorem reindex_reindexed (tree : FileTree) (showSummary : Bool) {engine : Engine}
    (enabled : engine.isEnabled = true) :
    Reindexed tree engine (engine.reindex tree showSummary).2 := by
  have rebuilt := Indexer.rebuild_rebuilt tree engine.indexer
  have notify (notice : Notice) (engine : Engine) :
      (engine.notify notice).settings = engine.settings ∧
        (engine.notify notice).indexer = engine.indexer := by
    unfold Engine.notify
    split <;> exact ⟨rfl, rfl⟩
  have reports (scanned : ScanReport) (engine : Engine) :
      (report showSummary engine scanned).settings = engine.settings ∧
        (report showSummary engine scanned).indexer = engine.indexer := by
    unfold Engine.report
    split_ifs <;> simp [notify]
  have said := reports (engine.indexer.rebuild tree).1
    { engine with indexer := (engine.indexer.rebuild tree).2 }
  have reindexed : (engine.reindex tree showSummary).2 = report showSummary
      { engine with indexer := (engine.indexer.rebuild tree).2 } (engine.indexer.rebuild tree).1 := by
    unfold Engine.reindex
    rw [if_pos enabled]
  refine ⟨enabled, ?_, ?_⟩
  · rw [reindexed, said.1]
  · rw [reindexed, said.2]
    exact rebuilt

/-- An engine answers queries, its index is up to date, and its status says so. -/
structure IsCurrent (tree : FileTree) (workspace : Workspace) (engine : Engine) : Prop where
  enabled : engine.isEnabled = true
  upToDate : engine.indexer.UpToDate tree
  ready : engine.indexer.status = .ready
  workspace : engine.indexer.workspace = workspace

theorem Reindexed.isCurrent {tree : FileTree} {before after : Engine}
    (reindexed : Reindexed tree before after) (wellFormed : tree.WellFormed) :
    after.IsCurrent tree before.indexer.workspace := by
  obtain ⟨upToDate, ready, sameWorkspace⟩ := reindexed.rebuilt.upToDate wellFormed
  refine ⟨?_, upToDate, ready, sameWorkspace⟩
  rw [isEnabled, reindexed.settings]
  exact reindexed.enabled

theorem IsCurrent.upToDate_found {tree : FileTree} {workspace : Workspace} {engine : Engine}
    (current : engine.IsCurrent tree workspace) {names : List String}
    (found : workspace.Finds tree names) :
    engine.index.symbolsInFile (Path.ofNames names) =
      workspace.symbolsOf tree (Path.ofNames names) := by
  obtain ⟨-, upToDate, -, rfl⟩ := current
  exact upToDate.found names found

theorem scanFile_snd (tree : FileTree) (path : Path) {engine : Engine}
    (enabled : engine.isEnabled = true) :
    (engine.scanFile tree path).2 =
      { engine with indexer := (engine.indexer.scanFile tree path).2 } := by
  unfold Engine.scanFile
  rw [if_pos enabled]

/-- An engine that is told of an edit is current again. -/
theorem IsCurrent.scanFile {tree : FileTree} {workspace : Workspace} {engine : Engine}
    (current : engine.IsCurrent tree workspace) (wellFormed : tree.WellFormed)
    (rootNamed : ∀ name ∈ workspace.root, IsEntryName name) {edit : FileEdit}
    (suits : edit.Suits workspace tree) :
    (engine.scanFile (edit.apply tree) edit.path).2.IsCurrent (edit.apply tree) workspace := by
  obtain ⟨enabled, upToDate, ready, rfl⟩ := current
  obtain ⟨next, nextReady, sameWorkspace⟩ := upToDate.scanFile wellFormed suits.allowed ready rootNamed
    suits.configured suits.agreed suits.leads
  rw [scanFile_snd _ _ enabled, FileEdit.apply]
  generalize (engine.indexer.scanFile _ _).2 = indexer at next nextReady sameWorkspace
  exact ⟨enabled, next, nextReady, sameWorkspace⟩

theorem IsCurrent.afterEdits {tree : FileTree} {workspace : Workspace} {engine : Engine}
    (current : engine.IsCurrent tree workspace) (wellFormed : tree.WellFormed)
    (rootNamed : ∀ name ∈ workspace.root, IsEntryName name) {edits : List FileEdit}
    (suited : FileEdit.SuitAll workspace tree edits) :
    (engine.afterEdits tree edits).IsCurrent (FileEdit.applyAll tree edits) workspace ∧
      (FileEdit.applyAll tree edits).WellFormed := by
  induction edits generalizing tree engine with
  | nil => exact ⟨current, wellFormed⟩
  | cons edit edits ih =>
      exact ih (current.scanFile wellFormed rootNamed suited.1)
        (wellFormed.withFile suited.1.allowed) suited.2

/-- An engine that was told of each edit answers as one that fills its index anew in the end, and its
status is that it is ready. -/
theorem afterEdits_answersAs {tree : FileTree} {edits : List FileEdit}
    {engine indexed fresh filled : Engine} (wellFormed : tree.WellFormed)
    (rootFound : (tree.node? engine.indexer.workspace.root).isSome)
    (first : Reindexed tree engine indexed)
    (suited : FileEdit.SuitAll engine.indexer.workspace tree edits)
    (sameWorkspace : fresh.indexer.workspace = engine.indexer.workspace)
    (last : Reindexed (FileEdit.applyAll tree edits) fresh filled) :
    let told := indexed.afterEdits tree edits
    told.index.AnswersAs filled.index ∧ told.indexer.status = .ready ∧
      (∀ query fromStart mode,
        (told.querySymbols query fromStart mode).1 = (filled.querySymbols query fromStart mode).1) ∧
      ∀ query fromStart mode,
        (told.queryModules query fromStart mode).1 = (filled.queryModules query fromStart mode).1 := by
  have rootNamed := wellFormed.isEntryName rootFound
  obtain ⟨toldCurrent, finalWellFormed⟩ :=
    (first.isCurrent wellFormed).afterEdits wellFormed rootNamed suited
  have filledCurrent := last.isCurrent finalWellFormed
  have answers : (indexed.afterEdits tree edits).index.AnswersAs filled.index := by
    refine toldCurrent.upToDate.answersAs filledCurrent.upToDate ?_
    rw [toldCurrent.workspace, filledCurrent.workspace, sameWorkspace]
  refine ⟨answers, toldCurrent.ready, fun query fromStart mode => ?_, fun query fromStart mode => ?_⟩
  · simp only [querySymbols, toldCurrent.enabled, filledCurrent.enabled, reduceIte,
      answers.getSymbols]
  · simp only [queryModules, toldCurrent.enabled, filledCurrent.enabled, reduceIte,
      answers.getModules]

/-- An engine that indexes the sources below the directory `w`. -/
def ofSources : Engine where
  settings := .standard
  indexer := .new ⟨["w"], ⟨(Glob.Pattern.parse? "**/*.ts").toList, [], []⟩, true⟩
  notices := []

/-- One source file. -/
def sourceTree : FileTree :=
  ⟨[(["w"], .directory), (["w", "a.ts"], .file (.text "export let a"))]⟩

/-- A file is created, another one is broken, and the first one is deleted again. -/
def sourceEdits : List FileEdit :=
  [⟨["w", "lib", "b.ts"], some (.text "export let b"), ⟨"lib/b.ts"⟩⟩,
    ⟨["w", "a.ts"], some (.text "export let"), ⟨"/w/./a.ts"⟩⟩,
    ⟨["w", "lib", "b.ts"], none, ⟨"lib/b.ts"⟩⟩]

theorem afterEdits_answersAs_of_three :
    let indexed := (ofSources.reindex sourceTree false).2
    let filled := (ofSources.reindex (FileEdit.applyAll sourceTree sourceEdits) false).2
    let told := indexed.afterEdits sourceTree sourceEdits
    told.index.AnswersAs filled.index ∧ told.indexer.status = .ready ∧
      (∀ query fromStart mode,
        (told.querySymbols query fromStart mode).1 = (filled.querySymbols query fromStart mode).1) ∧
      ∀ query fromStart mode,
        (told.queryModules query fromStart mode).1 = (filled.queryModules query fromStart mode).1 := by
  refine afterEdits_answersAs (by decide) (by decide) (reindex_reindexed _ _ rfl) ?_ rfl
    (reindex_reindexed _ _ rfl)
  refine ⟨?_, ?_, ?_, trivial⟩
  · exact FileEdit.suits_of_linkless (by decide +kernel) (by decide +kernel) (by decide +kernel)
      (by decide +kernel) (by decide +kernel) (by decide +kernel)
  · exact FileEdit.suits_of_linkless (by decide +kernel) (by decide +kernel) (by decide +kernel)
      (by decide +kernel) (by decide +kernel) (by decide +kernel)
  · exact FileEdit.suits_of_linkless (by decide +kernel) (by decide +kernel) (by decide +kernel)
      (by decide +kernel) (by decide +kernel) (by decide +kernel)

/-! ## A manifest under another name -/

/-- A package whose manifest is a link to a file that is not named as one. -/
def linkedPackage : FileTree :=
  ⟨[(["w"], .directory), (["w", "node_modules"], .directory),
    (["w", "node_modules", "p"], .directory),
    (["w", "node_modules", "p", "a.ts"], .file (.text "export let a")),
    (["w", "node_modules", "p", "package.json"], .link ⟨"/w/manifest"⟩),
    (["w", "manifest"], .file (.text "\x7b\"name\":\"old\"\x7d"))]⟩

/-- The package gets another name. -/
def nameChange : FileEdit :=
  ⟨["w", "manifest"], some (.text "\x7b\"name\":\"new\"\x7d"), ⟨"manifest"⟩⟩

/-- A manifest that is kept under another name is not read again when its file is, so the answers are
those of before the edit until the index is filled anew. -/
theorem not_answersAs_of_linked_manifest :
    linkedPackage.WellFormed ∧ linkedPackage.AllowsFile nameChange.location nameChange.content? ∧
      ¬nameChange.location.IsConfiguration ∧
      ofSources.indexer.workspace.LeadsTo (nameChange.apply linkedPackage) nameChange.path
        nameChange.location ∧
      ofSources.indexer.workspace.AcceptsFound linkedPackage ∧
      ofSources.indexer.workspace.AcceptsFound (nameChange.apply linkedPackage) ∧
      ¬((ofSources.reindex linkedPackage false).2.afterEdits linkedPackage [nameChange]).index.AnswersAs
        (ofSources.reindex (nameChange.apply linkedPackage) false).2.index := by
  have wellFormed : linkedPackage.WellFormed := by decide +kernel
  have allowed : linkedPackage.AllowsFile nameChange.location nameChange.content? := by decide +kernel
  have after := wellFormed.withFile allowed
  have enabled : ofSources.isEnabled = true := rfl
  have finds : ofSources.indexer.workspace.Finds linkedPackage ["node_modules", "p", "a.ts"] :=
    ⟨⟨.text "export let a", by decide +kernel⟩, by decide +kernel, by decide +kernel⟩
  have stillFinds : ofSources.indexer.workspace.Finds (nameChange.apply linkedPackage)
      ["node_modules", "p", "a.ts"] :=
    ⟨⟨.text "export let a", by decide +kernel⟩, by decide +kernel, by decide +kernel⟩
  have differs : ofSources.indexer.workspace.symbolsOf linkedPackage
      (Path.ofNames ["node_modules", "p", "a.ts"]) ≠
        ofSources.indexer.workspace.symbolsOf (nameChange.apply linkedPackage)
          (Path.ofNames ["node_modules", "p", "a.ts"]) := by
    decide +kernel
  have seen : ofSources.indexer.workspace.relativize? (nameChange.apply linkedPackage) nameChange.path =
      some ⟨"manifest"⟩ := by
    decide +kernel
  have unaccepted : ofSources.indexer.workspace.accepts (nameChange.apply linkedPackage)
      ⟨"manifest"⟩ = false := by
    decide +kernel
  have before := (reindex_reindexed linkedPackage false enabled).isCurrent wellFormed
  have afresh := (reindex_reindexed (nameChange.apply linkedPackage) false enabled).isCurrent after
  have kept : ((ofSources.reindex linkedPackage false).2.afterEdits linkedPackage
      [nameChange]).index.symbolsInFile (Path.ofNames ["node_modules", "p", "a.ts"]) =
        (ofSources.reindex linkedPackage false).2.index.symbolsInFile
          (Path.ofNames ["node_modules", "p", "a.ts"]) := by
    rw [← before.workspace] at seen unaccepted
    rw [afterEdits, afterEdits, scanFile_snd _ _ before.enabled, index, index,
      Indexer.index_scanFile_of_not_accepts seen unaccepted,
      SymbolIndex.symbolsInFile_removeFile before.upToDate.filed, if_neg (by decide +kernel)]
  refine ⟨wellFormed, allowed, by decide, by decide +kernel, ?_, ?_, fun answers => differs ?_⟩
  · exact Workspace.acceptsFound_of_entries wellFormed (by decide +kernel)
  · exact Workspace.acceptsFound_of_entries after (by decide +kernel)
  · rw [← before.upToDate_found finds, ← kept, answers.symbolsInFile, afresh.upToDate_found stillFinds]

end Engine

end AutoImport
