import AutoImport.Indexer.Scan
import AutoImport.Proofs.Scan.Walk
import AutoImport.Proofs.Symbol.Contents

/-!
# Indexes that are up to date

A file that is committed has the symbols in the index that it has now, and after a sweep there is nothing
else. An index that holds the symbols of the files that a walk finds, and no others, is up to date; two
such indexes answer alike, whatever each of them held before.
-/

namespace AutoImport

namespace Workspace

/-- The symbols of a file as it reads now. A file that fails has none. -/
def symbolsOf (workspace : Workspace) (tree : FileTree) (path : Path) : List ExportedSymbol :=
  match Indexer.exportsOfFile tree workspace path with
  | .error _ => []
  | .ok exports =>
    SymbolIndex.attributed path (exports.map
      (Indexer.symbolOf path (PackageCache.currentSpecifier? tree workspace.rootPath path)))

/-- How a file fails as it reads now, if it does. -/
def failure? (workspace : Workspace) (tree : FileTree) (path : Path) : Option FileError :=
  match Indexer.exportsOfFile tree workspace path with
  | .error failure => some ⟨path, failure.message, failure.stage⟩
  | .ok _ => none

section Failure

variable {workspace : Workspace} {tree : FileTree} {path : Path}

theorem failure?_of_error {failure : FileFailure}
    (read : Indexer.exportsOfFile tree workspace path = .error failure) :
    workspace.failure? tree path = some ⟨path, failure.message, failure.stage⟩ := by
  unfold failure?
  split
  · rename_i other again
    rw [Except.error.inj (again.symm.trans read)]
  · rename_i exports again
    simp [read] at again

theorem failure?_of_ok {exports : List Source.Export}
    (read : Indexer.exportsOfFile tree workspace path = .ok exports) :
    workspace.failure? tree path = none := by
  unfold failure?
  split
  · rename_i failure again
    simp [read] at again
  · rfl

theorem path_of_failure? {error : FileError} (fails : workspace.failure? tree path = some error) :
    error.path = path := by
  unfold failure? at fails
  split at fails
  · rw [← Option.some.inj fails]
  · simp at fails

end Failure

end Workspace

/-! ## Indexes with a history -/

namespace SymbolIndex

/-- The index came about by changes from the empty one. -/
def HasHistory (index : SymbolIndex) : Prop :=
  ∃ changes, afterChanges changes = index

theorem empty_hasHistory : empty.HasHistory :=
  ⟨[], rfl⟩

theorem HasHistory.apply {index : SymbolIndex} (history : index.HasHistory) (change : IndexChange) :
    (index.apply change).HasHistory := by
  obtain ⟨changes, rfl⟩ := history
  refine ⟨changes ++ [change], ?_⟩
  rw [afterChanges, List.foldl_append]
  rfl

theorem HasHistory.removeFile {index : SymbolIndex} (history : index.HasHistory) (path : Path) :
    (index.removeFile path).HasHistory :=
  history.apply (.removeFile path)

theorem HasHistory.keeps {index : SymbolIndex} (history : index.HasHistory) :
    index.Keeps index.symbolsInFile := by
  obtain ⟨changes, rfl⟩ := history
  have keeps := afterChanges_keeps changes
  exact ⟨keeps.filed, keeps.spelled, fun _ => rfl⟩

/-- Indexes that came about in different ways answer alike when they hold the same of each file. -/
theorem HasHistory.answersAs {left right : SymbolIndex} (leftHistory : left.HasHistory)
    (rightHistory : right.HasHistory)
    (same : ∀ path, left.symbolsInFile path = right.symbolsInFile path) : left.AnswersAs right := by
  have rightKeeps := rightHistory.keeps
  rw [← funext same] at rightKeeps
  exact leftHistory.keeps.answersFrom.answersAs rightKeeps.answersFrom

theorem hasHistory_foldl_removeFile {index : SymbolIndex} (history : index.HasHistory)
    (paths : List Path) : (paths.foldl removeFile index).HasHistory := by
  induction paths generalizing index with
  | nil => exact history
  | cons path paths ih => exact ih (history.removeFile path)

theorem symbolsInFile_foldl_removeFile {index : SymbolIndex} (history : index.HasHistory)
    (paths : List Path) (other : Path) :
    (paths.foldl removeFile index).symbolsInFile other =
      if ∃ path ∈ paths, other.Same path then [] else index.symbolsInFile other := by
  induction paths generalizing index with
  | nil => simp
  | cons path paths ih =>
      rw [List.foldl_cons, ih (history.removeFile path),
        symbolsInFile_removeFile history.keeps.filed]
      by_cases same : other.Same path <;> simp [same]

end SymbolIndex

namespace Indexer

/-- The index came about by changes, and what is remembered of packages is true. -/
structure Orderly (tree : FileTree) (indexer : Indexer) : Prop where
  history : indexer.index.HasHistory
  remembers : indexer.packages.Remembers tree indexer.workspace.rootPath

theorem Orderly.filed {tree : FileTree} {indexer : Indexer} (orderly : indexer.Orderly tree) :
    indexer.index.Filed :=
  orderly.history.keeps.filed

/-- The index holds the symbols of the files that a walk finds, and nothing else. -/
structure UpToDate (tree : FileTree) (indexer : Indexer) : Prop extends Orderly tree indexer where
  found : ∀ names, indexer.workspace.Finds tree names →
    indexer.index.symbolsInFile (Path.ofNames names) =
      indexer.workspace.symbolsOf tree (Path.ofNames names)
  others : ∀ path : Path, (∀ names, indexer.workspace.Finds tree names →
    ¬path.Same (Path.ofNames names)) → indexer.index.symbolsInFile path = []

/-- What an index is up to date with is all that counts of an indexer. -/
theorem UpToDate.of_index_eq {tree : FileTree} {one other : Indexer} (upToDate : one.UpToDate tree)
    (workspace : other.workspace = one.workspace) (index : other.index = one.index)
    (packages : other.packages = one.packages) : other.UpToDate tree := by
  obtain ⟨⟨history, remembers⟩, found, others⟩ := upToDate
  refine ⟨⟨?_, ?_⟩, ?_, ?_⟩ <;> simp only [workspace, index, packages] <;> assumption

/-- Two indexes of one workspace that are up to date with the same files answer alike. -/
theorem UpToDate.answersAs {tree : FileTree} {left right : Indexer} (leftUpToDate : left.UpToDate tree)
    (rightUpToDate : right.UpToDate tree) (sameWorkspace : left.workspace = right.workspace) :
    left.index.AnswersAs right.index := by
  apply leftUpToDate.history.answersAs rightUpToDate.history
  intro path
  by_cases found : ∃ names, left.workspace.Finds tree names ∧ path.Same (Path.ofNames names)
  · obtain ⟨names, found, same⟩ := found
    rw [SymbolIndex.symbolsInFile_congr _ same, SymbolIndex.symbolsInFile_congr _ same,
      leftUpToDate.found names found, rightUpToDate.found names (sameWorkspace ▸ found), sameWorkspace]
  · have apart (names : List String) (finds : left.workspace.Finds tree names) :
        ¬path.Same (Path.ofNames names) := fun same => found ⟨names, finds, same⟩
    rw [leftUpToDate.others path apart, rightUpToDate.others path (sameWorkspace ▸ apart)]

/-! ## Committing a file -/

/-- A commit changes the index, what is remembered of packages, and what is counted. -/
theorem commit_frame (tree : FileTree) (indexer : Indexer) (path : Path) :
    (indexer.commit tree path).2.workspace = indexer.workspace ∧
      (indexer.commit tree path).2.generation = indexer.generation ∧
      (indexer.commit tree path).2.status = indexer.status := by
  unfold commit
  cases exportsOfFile tree indexer.workspace path with
  | error failure => exact ⟨rfl, rfl, rfl⟩
  | ok exports => exact ⟨rfl, rfl, rfl⟩

theorem hasHistory_commit {indexer : Indexer} (history : indexer.index.HasHistory) (tree : FileTree)
    (path : Path) : (indexer.commit tree path).2.index.HasHistory := by
  unfold commit
  cases exportsOfFile tree indexer.workspace path with
  | error failure => exact history.removeFile path
  | ok exports => exact history.apply (.replaceFile path _)

/-- The symbols that a file has when it is committed. -/
def symbolsRead (tree : FileTree) (path : Path) (indexer : Indexer) : List ExportedSymbol :=
  match exportsOfFile tree indexer.workspace path with
  | .error _ => []
  | .ok exports =>
    SymbolIndex.attributed path (exports.map
      (symbolOf path (indexer.packages.specifierFor tree indexer.workspace.rootPath path).1))

theorem symbolsRead_of_ok {tree : FileTree} {path : Path} {indexer : Indexer}
    {exports : List Source.Export} (read : exportsOfFile tree indexer.workspace path = .ok exports) :
    indexer.symbolsRead tree path =
      SymbolIndex.attributed path (exports.map
        (symbolOf path (indexer.packages.specifierFor tree indexer.workspace.rootPath path).1)) := by
  unfold symbolsRead
  rw [read]

/-- A committed file has the symbols that are read then, and the other files keep theirs. -/
theorem symbolsInFile_commit_eq {tree : FileTree} {path : Path} {indexer : Indexer}
    (history : indexer.index.HasHistory) (other : Path) :
    (indexer.commit tree path).2.index.symbolsInFile other =
      if other.Same path then indexer.symbolsRead tree path
      else indexer.index.symbolsInFile other := by
  have filed := history.keeps.filed
  unfold commit symbolsRead
  cases exportsOfFile tree indexer.workspace path with
  | error failure => exact SymbolIndex.symbolsInFile_removeFile filed path other
  | ok exports => exact SymbolIndex.symbolsInFile_replaceFile filed path _ other

section Commit

variable {tree : FileTree} {indexer : Indexer} (path : Path) (orderly : indexer.Orderly tree)
include orderly

theorem Orderly.removeFile : (indexer.removeFile path).Orderly tree :=
  ⟨orderly.history.removeFile path, orderly.remembers⟩

theorem Orderly.commit : (indexer.commit tree path).2.Orderly tree := by
  refine ⟨hasHistory_commit orderly.history tree path, ?_⟩
  unfold Indexer.commit
  cases exportsOfFile tree indexer.workspace path with
  | error failure => exact orderly.remembers
  | ok exports => exact (PackageCache.specifierFor_of_remembers orderly.remembers path).2

theorem Orderly.symbolsRead : indexer.symbolsRead tree path = indexer.workspace.symbolsOf tree path := by
  unfold Indexer.symbolsRead Workspace.symbolsOf
  rw [(PackageCache.specifierFor_of_remembers orderly.remembers path).1]

/-- What is remembered of packages is true, so a committed file has the symbols that it has now. -/
theorem symbolsInFile_commit (other : Path) :
    (indexer.commit tree path).2.index.symbolsInFile other =
      if other.Same path then indexer.workspace.symbolsOf tree path
      else indexer.index.symbolsInFile other := by
  rw [symbolsInFile_commit_eq orderly.history, orderly.symbolsRead]

end Commit

/-! ## The sweep -/

/-- A sweep changes nothing but the index. -/
theorem sweep_eq (seen : List Path) (indexer : Indexer) :
    indexer.sweep seen =
      { indexer with
        index := (indexer.index.listFiles.filter fun path =>
          !seen.any fun other => decide (other.Same path)).foldl SymbolIndex.removeFile
            indexer.index } := by
  rw [sweep]
  generalize indexer.index.listFiles.filter _ = paths
  induction paths generalizing indexer with
  | nil => rfl
  | cons path paths ih => exact ih (indexer.removeFile path)

theorem hasHistory_sweep {indexer : Indexer} (history : indexer.index.HasHistory) (seen : List Path) :
    (indexer.sweep seen).index.HasHistory := by
  rw [sweep_eq]
  exact SymbolIndex.hasHistory_foldl_removeFile history _

section Sweep

variable {indexer : Indexer} (history : indexer.index.HasHistory) {seen : List Path} {path : Path}
include history

theorem symbolsInFile_sweep_of_seen (seenIt : ∃ other ∈ seen, path.Same other) :
    (indexer.sweep seen).index.symbolsInFile path = indexer.index.symbolsInFile path := by
  rw [sweep_eq, SymbolIndex.symbolsInFile_foldl_removeFile history, if_neg]
  rintro ⟨dropped, member, same⟩
  obtain ⟨other, otherMember, otherSame⟩ := seenIt
  have unseen := (List.mem_filter.mp member).2
  simp only [Bool.not_eq_true', List.any_eq_false, decide_eq_true_eq] at unseen
  exact unseen other otherMember (otherSame.symm.trans same)

/-- No file is left that the scan did not come across: it had no symbols, or it was listed. -/
theorem symbolsInFile_sweep_of_unseen (unseen : ∀ other ∈ seen, ¬path.Same other) :
    (indexer.sweep seen).index.symbolsInFile path = [] := by
  rw [sweep_eq, SymbolIndex.symbolsInFile_foldl_removeFile history]
  rcases Buckets.find_eq_nil_or_mem indexer.index.byFile path with
    empty | ⟨entry, member, same, -⟩
  · have missing : indexer.index.symbolsInFile path = [] := empty
    simp [missing]
  · have sameKey : path.Same entry.1 := Path.compare_eq_iff_same.mp same
    apply if_pos
    refine ⟨entry.1, List.mem_filter.mpr ⟨List.mem_map_of_mem member, ?_⟩, sameKey⟩
    simp only [Bool.not_eq_true', List.any_eq_false, decide_eq_true_eq]
    exact fun other otherMember otherSame => unseen other otherMember (sameKey.trans otherSame.symm)

end Sweep

end Indexer

end AutoImport
