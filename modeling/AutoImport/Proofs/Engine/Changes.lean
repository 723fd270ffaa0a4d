import AutoImport.Engine.Watch
import AutoImport.Proofs.Engine.Edits
import AutoImport.Proofs.Indexer.Reread

/-!
# Batches of changes

While files do not change, an engine that is told of changes in any order, with any repetitions and by any
spellings comes to the same answers, as long as the changes touch the same files. So it is enough to tell
it of the last change of each path.
-/

namespace AutoImport

namespace FileChange

/-! ## The last change of each path -/

/-- After the change its path is not changed again. -/
def IsLastIn (changes : List FileChange) (change : FileChange) : Prop :=
  ∃ before after, changes = before ++ change :: after ∧
    ∀ later ∈ after, ¬later.path.Same change.path

theorem isLastIn_cons {first change : FileChange} {changes : List FileChange} :
    change.IsLastIn (first :: changes) ↔
      change = first ∧ (∀ later ∈ changes, ¬later.path.Same first.path) ∨ change.IsLastIn changes := by
  constructor
  · rintro ⟨before, after, split, last⟩
    cases before with
    | nil =>
        obtain ⟨rfl, rfl⟩ := List.cons.inj split
        exact .inl ⟨rfl, last⟩
    | cons other before =>
        obtain ⟨rfl, rfl⟩ := List.cons.inj split
        exact .inr ⟨before, after, rfl, last⟩
  · rintro (⟨rfl, last⟩ | ⟨before, after, rfl, last⟩)
    · exact ⟨[], changes, rfl, last⟩
    · exact ⟨first :: before, after, rfl, last⟩

theorem mem_keepLast {changes : List FileChange} {change : FileChange} :
    change ∈ lastOfEach.keepLast changes ↔ change.IsLastIn changes := by
  induction changes with
  | nil => simp [lastOfEach.keepLast, IsLastIn]
  | cons first changes ih =>
      rw [lastOfEach.keepLast, isLastIn_cons, ← ih]
      split
      · rename_i again
        have changed : ¬∀ later ∈ changes, ¬later.path.Same first.path := by
          simpa using again
        simp [changed]
      · rename_i never
        have unchanged : ∀ later ∈ changes, ¬later.path.Same first.path := by
          simpa using never
        rw [List.mem_cons, and_iff_left unchanged]

theorem keepLast_distinct (changes : List FileChange) :
    (lastOfEach.keepLast changes).Pairwise fun left right => ¬left.path.Same right.path := by
  induction changes with
  | nil => exact List.Pairwise.nil
  | cons first changes ih =>
      rw [lastOfEach.keepLast]
      split
      · exact ih
      · rename_i never
        refine List.pairwise_cons.mpr ⟨?_, ih⟩
        intro later member same
        rcases mem_keepLast.mp member with ⟨before, after, rfl, -⟩
        apply never
        rw [List.any_eq_true]
        exact ⟨later, by simp, decide_eq_true same.symm⟩

/-- Of each path the last change is kept, and the changes are in the order of their paths. -/
theorem lastOfEach_lists (changes : List FileChange) :
    Lists (compareOn FileChange.path) (lastOfEach changes) {change | change.IsLastIn changes} := by
  apply SymbolIndex.mergeSort_lists
  · refine (keepLast_distinct changes).imp ?_
    intro left right apart equal
    exact apart (Path.compare_eq_iff_same.mp equal)
  · intro change
    exact mem_keepLast

theorem exists_isLastIn {changes : List FileChange} {path : Path}
    (changed : ∃ change ∈ changes, path.Same change.path) :
    ∃ last : FileChange, last.IsLastIn changes ∧ path.Same last.path := by
  induction changes with
  | nil => simp at changed
  | cons first changes ih =>
      by_cases again : ∃ later ∈ changes, path.Same later.path
      · rcases ih again with ⟨last, isLast, same⟩
        exact ⟨last, isLastIn_cons.mpr (.inr isLast), same⟩
      · rcases changed with ⟨change, member, same⟩
        rcases List.mem_cons.mp member with rfl | later
        · refine ⟨change, isLastIn_cons.mpr (.inl ⟨rfl, ?_⟩), same⟩
          intro later laterMember laterSame
          exact again ⟨later, laterMember, same.trans laterSame.symm⟩
        · exact absurd ⟨change, later, same⟩ again

end FileChange

namespace Workspace

/-- The files of the workspace that changes are about. -/
def touched (workspace : Workspace) (tree : FileTree) (changes : List FileChange) : List Path :=
  changes.filterMap fun change => workspace.relativize? tree change.path

theorem touched_cons (workspace : Workspace) (tree : FileTree) (change : FileChange)
    (changes : List FileChange) :
    workspace.touched tree (change :: changes) =
      (workspace.relativize? tree change.path).toList ++ workspace.touched tree changes := by
  rw [touched, List.filterMap_cons]
  cases workspace.relativize? tree change.path <;> rfl

theorem isPlain_of_mem_touched {workspace : Workspace} {tree : FileTree} {changes : List FileChange}
    {path : Path} (member : path ∈ workspace.touched tree changes) : path.IsPlain := by
  rcases List.mem_filterMap.mp member with ⟨change, -, seen⟩
  exact isPlain_of_relativize? seen

/-- The last changes touch the same files. -/
theorem mem_touched_lastOfEach {workspace : Workspace} {tree : FileTree} {changes : List FileChange}
    {path : Path} :
    path ∈ workspace.touched tree (FileChange.lastOfEach changes) ↔
      path ∈ workspace.touched tree changes := by
  rw [touched, touched, List.mem_filterMap, List.mem_filterMap]
  constructor
  · rintro ⟨change, member, seen⟩
    rcases ((FileChange.lastOfEach_lists changes).mem_iff change).mp member with
      ⟨before, after, rfl, -⟩
    exact ⟨change, by simp, seen⟩
  · rintro ⟨change, member, seen⟩
    rcases FileChange.exists_isLastIn ⟨change, member, Path.Same.refl _⟩ with ⟨last, isLast, same⟩
    refine ⟨last, ((FileChange.lastOfEach_lists changes).mem_iff last).mpr isLast, ?_⟩
    rw [← relativize?_congr workspace tree same]
    exact seen

end Workspace

namespace Engine

/-! ## What changes leave behind -/

/-- The files that were touched have the symbols that they have now, and the other files keep theirs. -/
structure Applied (tree : FileTree) (touched : List Path) (before after : Indexer) : Prop where
  history : after.index.HasHistory
  alike : after.ReadsAlike tree before
  read : ∀ path ∈ touched, ∀ other : Path, other.Same path →
    after.index.symbolsInFile other = before.symbolsUpdated tree path
  kept : ∀ other : Path, (∀ path ∈ touched, ¬other.Same path) →
    after.index.symbolsInFile other = before.index.symbolsInFile other

theorem applied_nil {tree : FileTree} {indexer : Indexer} (history : indexer.index.HasHistory) :
    Applied tree [] indexer indexer :=
  ⟨history, .of_eq rfl rfl, by simp, fun _ _ => rfl⟩

/-- One more file is touched at first. -/
theorem Applied.cons {tree : FileTree} {path : Path} {touched : List Path}
    {before middle after : Indexer} (applied : Applied tree touched middle after)
    (plain : ∀ other ∈ path :: touched, other.IsPlain)
    (updated : Indexer.Updated tree path before middle) :
    Applied tree (path :: touched) before after := by
  have later {other : Path} (member : other ∈ touched) {spelled : Path} (same : spelled.Same other) :
      after.index.symbolsInFile spelled = before.symbolsUpdated tree other := by
    rw [applied.read other member spelled same, updated.alike.symbolsUpdated]
  refine ⟨applied.history, applied.alike.trans updated.alike, ?_, ?_⟩
  · intro other member spelled same
    rcases List.mem_cons.mp member with rfl | inside
    · by_cases again : ∃ second ∈ touched, spelled.Same second
      · rcases again with ⟨second, secondMember, secondSame⟩
        -- The file is touched again later, and then it reads the same.
        have itself : other = second :=
          (plain other List.mem_cons_self).eq_of_same
            (plain second (List.mem_cons_of_mem _ secondMember)) (same.symm.trans secondSame)
        rw [itself]
        exact later secondMember secondSame
      · rw [applied.kept spelled fun second secondMember secondSame =>
          again ⟨second, secondMember, secondSame⟩, updated.symbolsInFile, if_pos same]
    · exact later inside same
  · intro other apart
    rw [applied.kept other fun path member => apart path (List.mem_cons_of_mem _ member),
      updated.symbolsInFile, if_neg (apart path List.mem_cons_self)]

/-- Indexers on which the same files were touched answer alike. -/
theorem Applied.answersAs {tree : FileTree} {touched others : List Path} {before left right : Indexer}
    (plain : ∀ path ∈ touched ++ others, path.IsPlain)
    (same : ∀ path : Path, (∃ one ∈ touched, path.Same one) ↔ ∃ other ∈ others, path.Same other)
    (leftApplied : Applied tree touched before left)
    (rightApplied : Applied tree others before right) : left.index.AnswersAs right.index := by
  apply leftApplied.history.answersAs rightApplied.history
  intro path
  by_cases touches : ∃ one ∈ touched, path.Same one
  · rcases touches with ⟨one, oneMember, oneSame⟩
    rcases (same path).mp ⟨one, oneMember, oneSame⟩ with ⟨other, otherMember, otherSame⟩
    have itself : one = other :=
      (plain one (List.mem_append_left _ oneMember)).eq_of_same
        (plain other (List.mem_append_right _ otherMember)) (oneSame.symm.trans otherSame)
    rw [leftApplied.read one oneMember path oneSame, rightApplied.read other otherMember path otherSame,
      itself]
  · have untouched : ¬∃ other ∈ others, path.Same other := fun there => touches ((same path).mpr there)
    rw [leftApplied.kept path fun one member itself => touches ⟨one, member, itself⟩,
      rightApplied.kept path fun other member itself => untouched ⟨other, member, itself⟩]

theorem applyChanges_snd (tree : FileTree) (changes : List FileChange) (engine : Engine) :
    (engine.applyChanges tree changes).2 =
      changes.foldl (fun engine change => (engine.scanFile tree change.path).2) engine := by
  unfold applyChanges
  generalize WatchStats.zero = stats
  induction changes generalizing stats engine with
  | nil => rfl
  | cons change changes ih => exact ih _ _

theorem applyChanges_of_disabled {tree : FileTree} {engine : Engine} (disabled : engine.isEnabled = false)
    (changes : List FileChange) : (engine.applyChanges tree changes).2 = engine := by
  rw [applyChanges_snd]
  induction changes with
  | nil => rfl
  | cons change changes ih =>
      have unread : (engine.scanFile tree change.path).2 = engine := by
        unfold Engine.scanFile
        rw [disabled, if_neg Bool.false_ne_true]
      rw [List.foldl_cons, unread]
      exact ih

theorem applyChanges_applied {tree : FileTree} {engine : Engine} (enabled : engine.isEnabled = true)
    (history : engine.index.HasHistory) (changes : List FileChange) :
    Applied tree (engine.indexer.workspace.touched tree changes) engine.indexer
      (engine.applyChanges tree changes).2.indexer := by
  rw [applyChanges_snd]
  induction changes generalizing engine with
  | nil => exact applied_nil history
  | cons change changes ih =>
      have plain : ∀ path ∈ engine.indexer.workspace.touched tree (change :: changes), path.IsPlain :=
        fun path => Workspace.isPlain_of_mem_touched
      rw [Workspace.touched_cons] at plain ⊢
      rw [List.foldl_cons, scanFile_snd _ _ enabled]
      cases seen : engine.indexer.workspace.relativize? tree change.path with
      | none =>
          rw [Indexer.scanFile_of_outside seen]
          exact ih enabled history
      | some path =>
          have updated := Indexer.scanFile_updated history seen
          generalize (engine.indexer.scanFile tree change.path).2 = middle at updated
          have stillEnabled : ({ engine with indexer := middle } : Engine).isEnabled = true := enabled
          have onward := ih stillEnabled updated.history
          simp only [updated.alike.workspace] at onward
          rw [seen] at plain
          exact onward.cons plain updated

/-- Two batches of changes that touch the same files leave the same answers behind, whatever the index held
and whatever was remembered of packages. To tell the last change of each path is as good as to tell all. -/
theorem applyChanges_answersAs {tree : FileTree} {engine : Engine} (history : engine.index.HasHistory)
    (changes : List FileChange) :
    (∀ others : List FileChange,
      (∀ path : Path, (∃ one ∈ engine.indexer.workspace.touched tree changes, path.Same one) ↔
        ∃ other ∈ engine.indexer.workspace.touched tree others, path.Same other) →
      (engine.applyChanges tree changes).2.index.AnswersAs
        (engine.applyChanges tree others).2.index) ∧
    (engine.applyChanges tree (FileChange.lastOfEach changes)).2.index.AnswersAs
      (engine.applyChanges tree changes).2.index ∧
    Lists (compareOn FileChange.path) (FileChange.lastOfEach changes)
      {change | change.IsLastIn changes} ∧
    ∀ change ∈ changes, ∃ last ∈ FileChange.lastOfEach changes, change.path.Same last.path := by
  have batches (batch others : List FileChange)
      (same : ∀ path : Path, (∃ one ∈ engine.indexer.workspace.touched tree batch, path.Same one) ↔
        ∃ other ∈ engine.indexer.workspace.touched tree others, path.Same other) :
      (engine.applyChanges tree batch).2.index.AnswersAs (engine.applyChanges tree others).2.index := by
    cases enabled : engine.isEnabled with
    | false =>
        rw [applyChanges_of_disabled enabled, applyChanges_of_disabled enabled]
        exact history.answersAs history fun _ => rfl
    | true =>
        refine Applied.answersAs ?_ same (applyChanges_applied enabled history batch)
          (applyChanges_applied enabled history others)
        intro path member
        rcases List.mem_append.mp member with one | other
        · exact Workspace.isPlain_of_mem_touched one
        · exact Workspace.isPlain_of_mem_touched other
  refine ⟨batches changes, ?_, FileChange.lastOfEach_lists changes, ?_⟩
  · apply batches
    intro path
    simp only [Workspace.mem_touched_lastOfEach]
  · intro change member
    rcases FileChange.exists_isLastIn ⟨change, member, Path.Same.refl _⟩ with ⟨last, isLast, same⟩
    exact ⟨last, ((FileChange.lastOfEach_lists changes).mem_iff last).mpr isLast, same⟩

/-- An engine with a file in its index that is gone, and with a package in its memory that is not there. -/
def outdatedSources : Engine :=
  { ofSources with
    indexer :=
      { ofSources.indexer with
        index := SymbolIndex.empty.replaceFile ⟨"b.ts"⟩ [⟨"b", .variable, ⟨"b.ts"⟩, none⟩]
        packages := ⟨[(["node_modules", "p"], some ⟨"p", [], []⟩)]⟩ } }

theorem applyChanges_answersAs_of_spellings :
    let changes : List FileChange :=
      [⟨⟨"a.ts"⟩, .created⟩, ⟨⟨"../x.ts"⟩, .modified⟩, ⟨⟨"b.ts"⟩, .deleted⟩]
    let others : List FileChange :=
      [⟨⟨"/w/b.ts"⟩, .modified⟩, ⟨⟨"./gone/../a.ts"⟩, .deleted⟩, ⟨⟨"b.ts"⟩, .created⟩]
    outdatedSources.index.listFiles = [⟨"b.ts"⟩] ∧
      (outdatedSources.applyChanges sourceTree changes).2.index.AnswersAs
        (outdatedSources.applyChanges sourceTree others).2.index ∧
      (outdatedSources.applyChanges sourceTree others).2.index.listFiles = [⟨"a.ts"⟩] := by
  intro changes others
  have history : outdatedSources.index.HasHistory :=
    SymbolIndex.empty_hasHistory.apply (.replaceFile ⟨"b.ts"⟩ _)
  have one : outdatedSources.indexer.workspace.touched sourceTree changes =
      [⟨"a.ts"⟩, ⟨"b.ts"⟩] := by decide +kernel
  have other : outdatedSources.indexer.workspace.touched sourceTree others =
      [⟨"b.ts"⟩, ⟨"a.ts"⟩, ⟨"b.ts"⟩] := by decide +kernel
  refine ⟨by decide +kernel, (applyChanges_answersAs history changes).1 others ?_, by decide +kernel⟩
  intro path
  rw [one, other]
  grind

end Engine

end AutoImport
