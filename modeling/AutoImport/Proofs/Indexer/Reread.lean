import AutoImport.Proofs.Indexer.Relativize
import AutoImport.Proofs.Indexer.Update

/-!
# Reading files again

What an update makes of a file depends on the files and on what is remembered of packages. An update
remembers more of packages than before, but nothing that another update would not read by itself. So the
symbols that files get do not depend on the updates before.
-/

namespace AutoImport

namespace PackageCache

/-- What is looked up does not depend on what was looked up before. -/
theorem fst_lookUp_lookUp (cache : PackageCache) (tree : FileTree) (root : Path)
    (directory other : List String) :
    ((cache.lookUp tree root directory).2.lookUp tree root other).1 =
      (cache.lookUp tree root other).1 := by
  rw [lookUp.eq_def cache tree root directory]
  cases known : cache.known.lookup directory with
  | some package? => rfl
  | none =>
      rw [lookUp, lookUp]
      by_cases same : other = directory
      · subst same
        simp [known]
      · have apart : (other == directory) = false := by simpa using same
        simp only [List.lookup_cons, apart]
        cases cache.known.lookup other <;> rfl

theorem fst_specifierFor_specifierFor (cache : PackageCache) (tree : FileTree) (root path other : Path) :
    ((cache.specifierFor tree root path).2.specifierFor tree root other).1 =
      (cache.specifierFor tree root other).1 := by
  rw [specifierFor.eq_def cache tree root path]
  cases PackageFile.ofPath? path with
  | none => rfl
  | some found =>
      rw [specifierFor, specifierFor]
      cases PackageFile.ofPath? other with
      | none => rfl
      | some second =>
          simp only
          rw [fst_lookUp_lookUp]

end PackageCache

namespace Indexer

/-- The symbols that a file of the workspace has when it is updated. -/
def symbolsUpdated (tree : FileTree) (path : Path) (indexer : Indexer) : List ExportedSymbol :=
  if tree.isFile (indexer.workspace.rootPath.join path) && indexer.workspace.accepts tree path then
    indexer.symbolsRead tree path
  else []

/-- Two indexers would read the same of each file. -/
structure ReadsAlike (tree : FileTree) (left right : Indexer) : Prop where
  workspace : left.workspace = right.workspace
  specifier : ∀ path,
    (left.packages.specifierFor tree left.workspace.rootPath path).1 =
      (right.packages.specifierFor tree right.workspace.rootPath path).1

theorem ReadsAlike.trans {tree : FileTree} {one two three : Indexer} (first : one.ReadsAlike tree two)
    (second : two.ReadsAlike tree three) : one.ReadsAlike tree three :=
  ⟨first.workspace.trans second.workspace, fun path =>
    (first.specifier path).trans (second.specifier path)⟩

theorem ReadsAlike.of_eq {tree : FileTree} {left right : Indexer}
    (workspace : left.workspace = right.workspace) (packages : left.packages = right.packages) :
    left.ReadsAlike tree right :=
  ⟨workspace, fun path => by rw [workspace, packages]⟩

theorem ReadsAlike.symbolsUpdated {tree : FileTree} {left right : Indexer}
    (alike : left.ReadsAlike tree right) (path : Path) :
    left.symbolsUpdated tree path = right.symbolsUpdated tree path := by
  unfold Indexer.symbolsUpdated symbolsRead
  rw [alike.specifier path, alike.workspace]

theorem commit_readsAlike (tree : FileTree) (path : Path) (indexer : Indexer) :
    (indexer.commit tree path).2.ReadsAlike tree indexer := by
  unfold commit
  cases exportsOfFile tree indexer.workspace path with
  | error failure => exact .of_eq rfl rfl
  | ok exports =>
      exact ⟨rfl, fun other => PackageCache.fst_specifierFor_specifierFor _ _ _ path other⟩

/-- What an update does: the file gets the symbols that it has now, and the other files keep theirs. -/
structure Updated (tree : FileTree) (path : Path) (before after : Indexer) : Prop where
  history : after.index.HasHistory
  alike : after.ReadsAlike tree before
  symbolsInFile : ∀ other, after.index.symbolsInFile other =
    if other.Same path then before.symbolsUpdated tree path else before.index.symbolsInFile other

theorem updateFile_updated {indexer : Indexer} (history : indexer.index.HasHistory) (tree : FileTree)
    (path : Path) : Updated tree path indexer (indexer.updateFile tree path).2 := by
  rw [updateFile_snd]
  split
  · rename_i here
    refine ⟨hasHistory_commit history tree path, commit_readsAlike tree path indexer, ?_⟩
    intro other
    rw [symbolsInFile_commit_eq history, symbolsUpdated, if_pos here]
  · rename_i gone
    refine ⟨history.removeFile path, .of_eq rfl rfl, ?_⟩
    intro other
    rw [symbolsUpdated, if_neg gone]
    exact SymbolIndex.symbolsInFile_removeFile history.keeps.filed path other

theorem scanFile_updated {tree : FileTree} {path relative : Path} {indexer : Indexer}
    (history : indexer.index.HasHistory)
    (seen : indexer.workspace.relativize? tree path = some relative) :
    Updated tree relative indexer (indexer.scanFile tree path).2 := by
  have told : (indexer.announce (.updating relative)).ReadsAlike tree indexer := .of_eq rfl rfl
  have announced : (indexer.announce (.updating relative)).index.HasHistory := history
  have updated := updateFile_updated announced tree relative
  rw [scanFile_snd seen]
  generalize ((indexer.announce (.updating relative)).updateFile tree relative).2 = next at updated
  have ended : (next.endUpdate indexer.status).ReadsAlike tree next := .of_eq rfl rfl
  refine ⟨updated.history, (ended.trans updated.alike).trans told, ?_⟩
  intro other
  rw [← told.symbolsUpdated relative]
  exact updated.symbolsInFile other

end Indexer

end AutoImport
