import AutoImport.Proofs.Indexer.Commit
import Mathlib.Data.List.Perm.Basic
import Mathlib.Tactic.SplitIfs

/-!
# What a full scan leaves behind

A full scan that comes to its end has indexed the files that a walk finds and no others, whatever was in
the index before and in whichever order it took the files. What a step can do is told once, by
`Indexer.Advances`; the invariant `Indexer.HoldsAt` follows the points of the scan. While files are
committed it holds as long as the scan is not stale, for a stale scan passes over files; but a scan that
was stale once stays so, and then its report says that it was cancelled.
-/

namespace AutoImport

namespace ScanProgress

@[simp]
theorem add_seen (progress : ScanProgress) (path : Path) (result : Except FileFailure Nat) :
    (progress.add path result).seen = path :: progress.seen := by
  cases result <;> rfl

/-- What a scan counted fits the files that it came across. -/
structure Accounts (progress : ScanProgress) (workspace : Workspace) (tree : FileTree) : Prop where
  errors : progress.errors.Perm (progress.seen.filterMap (workspace.failure? tree))
  scanned : progress.scanned + progress.errors.length = progress.seen.length

theorem Accounts.commit {progress : ScanProgress} {indexer : Indexer} {tree : FileTree}
    (accounts : progress.Accounts indexer.workspace tree) (path : Path) :
    (progress.add path (indexer.commit tree path).1).Accounts indexer.workspace tree := by
  rcases accounts with ⟨errors, scanned⟩
  unfold Indexer.commit
  cases read : Indexer.exportsOfFile tree indexer.workspace path with
  | error failure =>
      have fails := Workspace.failure?_of_error read
      refine ⟨?_, ?_⟩ <;> simp only [add, List.filterMap_cons_some fails]
      · exact (List.perm_append_singleton _ _).trans (errors.cons _)
      · simp only [List.length_append, List.length_cons, List.length_nil]
        omega
  | ok exports =>
      have reads := Workspace.failure?_of_ok read
      refine ⟨?_, ?_⟩ <;> simp only [add, List.filterMap_cons_none reads]
      · exact errors
      · simp only [List.length_cons]
        omega

/-- The failures of a scan, each once and in the order of the files. -/
theorem Accounts.lists_errors {progress : ScanProgress} {workspace : Workspace}
    {tree : FileTree} (accounts : progress.Accounts workspace tree) (wellFormed : tree.WellFormed)
    (seen : progress.seen.Perm (workspace.collect tree)) :
    Lists (compareOn FileError.path) (FileError.sort progress.errors)
      { error | ∃ path ∈ workspace.collect tree, workspace.failure? tree path = some error } := by
  have perm : progress.errors.Perm ((workspace.collect tree).filterMap (workspace.failure? tree)) :=
    accounts.errors.trans (seen.filterMap _)
  apply SymbolIndex.mergeSort_lists
  · refine perm.symm.pairwise ?_ fun {_ _} apart equal => apart (Std.OrientedCmp.eq_symm equal)
    rw [List.pairwise_filterMap]
    apply (Workspace.collect_distinct wellFormed).imp
    intro left right apart error fails other otherFails equal
    have same : error.path.Same other.path := Path.compare_eq_iff_same.mp equal
    rw [Workspace.path_of_failure? fails, Workspace.path_of_failure? otherFails] at same
    exact apart same
  · intro error
    rw [perm.mem_iff, List.mem_filterMap]
    rfl

end ScanProgress

namespace ScanPoint

/-- The scan is not over, or its report does not say that it was cancelled. -/
def Uncancelled : ScanPoint → Prop
  | .returned report => report.cancelled = false
  | _ => True

/-- A bound of the steps that are left to a scan that takes the files in order. -/
def stepsLeft (files : Nat) : ScanPoint → Nat
  | .entered => 2 * files + 8
  | .clearing => 2 * files + 7
  | .cleared => 2 * files + 6
  | .starting => 2 * files + 5
  | .announced => 2 * files + 4
  | .committing left taken _ => 2 * left.length + taken.length + 3
  | .sweeping _ => 2
  | .swept _ => 1
  | .returned _ => 0

end ScanPoint

namespace Indexer

/-! ## What a step can do -/

/-- What a step of a scan can do. -/
inductive Advances (tree : FileTree) (call : ScanCall) :
    ScanPoint → Indexer → ScanPoint → Indexer → Prop where
  /-- Nothing is left to do, or no file was chosen. -/
  | stay (point : ScanPoint) (indexer : Indexer) : Advances tree call point indexer point indexer
  | supersede {point : ScanPoint} {indexer : Indexer} (stale : indexer.isStale call.generation = true) :
      Advances tree call point indexer (.returned .superseded) indexer
  | keepIndex {indexer : Indexer} (again : call.afresh = false) :
      Advances tree call .entered indexer .cleared indexer
  | beginClearing {indexer : Indexer} (fresh : indexer.isStale call.generation = false) :
      Advances tree call .entered indexer .clearing indexer
  | clear {indexer : Indexer} : Advances tree call .clearing indexer .cleared indexer.clear
  | begin {indexer : Indexer} (fresh : indexer.isStale call.generation = false) :
      Advances tree call .cleared indexer .starting indexer
  | announce {indexer : Indexer} :
      Advances tree call .starting indexer .announced (indexer.announce .scanning)
  | collect {indexer : Indexer} :
      Advances tree call .announced indexer
        (.committing (indexer.workspace.collect tree) [] .none) { indexer with packages := .empty }
  | passOver {left rest taken : List Path} {path : Path} {progress : ScanProgress} {indexer : Indexer}
      (stale : indexer.isStale call.generation = true) (chosen : left.Perm (path :: rest)) :
      Advances tree call (.committing left taken progress) indexer
        (.committing rest taken progress) indexer
  | take {left rest taken : List Path} {path : Path} {progress : ScanProgress} {indexer : Indexer}
      (fresh : indexer.isStale call.generation = false) (chosen : left.Perm (path :: rest)) :
      Advances tree call (.committing left taken progress) indexer
        (.committing rest (taken ++ [path]) progress) indexer
  | commit {left taken rest : List Path} {path : Path} {progress : ScanProgress} {indexer : Indexer}
      (chosen : taken.Perm (path :: rest)) :
      Advances tree call (.committing left taken progress) indexer
        (.committing left rest (progress.add path (indexer.commit tree path).1))
        (indexer.commit tree path).2
  | finish {progress : ScanProgress} {indexer : Indexer}
      (fresh : indexer.isStale call.generation = false) :
      Advances tree call (.committing [] [] progress) indexer (.sweeping progress) indexer
  | sweep {progress : ScanProgress} {indexer : Indexer} :
      Advances tree call (.sweeping progress) indexer (.swept progress) (indexer.sweep progress.seen)
  | close {progress : ScanProgress} {indexer : Indexer} :
      Advances tree call (.swept progress) indexer (.returned (indexer.close progress).1)
        (indexer.close progress).2

theorem perm_cons_eraseIdx {paths : List Path} {place : Nat} {path : Path}
    (chosen : paths[place]? = some path) : paths.Perm (path :: paths.eraseIdx place) := by
  obtain ⟨inRange, rfl⟩ := List.getElem?_eq_some_iff.mp chosen
  exact (List.getElem_cons_eraseIdx_perm inRange).symm

theorem advance_advances (tree : FileTree) (call : ScanCall) (pick : Nat) (point : ScanPoint)
    (indexer : Indexer) :
    Advances tree call point indexer (advance tree call pick point indexer).1
      (advance tree call pick point indexer).2 := by
  cases point with
  | entered =>
      simp only [advance]
      split
      · rename_i again
        exact .keepIndex (by simpa using again)
      · split
        · exact .supersede ‹_›
        · exact .beginClearing (Bool.eq_false_of_not_eq_true ‹_›)
  | clearing => exact .clear
  | cleared =>
      simp only [advance]
      split
      · exact .supersede ‹_›
      · exact .begin (Bool.eq_false_of_not_eq_true ‹_›)
  | starting => exact .announce
  | announced => exact .collect
  | committing left taken progress =>
      by_cases empty : left = [] ∧ taken = []
      · obtain ⟨rfl, rfl⟩ := empty
        simp only [advance]
        split
        · exact .supersede ‹_›
        · exact .finish (Bool.eq_false_of_not_eq_true ‹_›)
      · rw [advance.eq_7 _ _ _ _ _ _ _ fun left taken => empty ⟨left, taken⟩]
        split
        · rename_i path chosen
          split
          · exact .passOver ‹_› (perm_cons_eraseIdx chosen)
          · exact .take (Bool.eq_false_of_not_eq_true ‹_›) (perm_cons_eraseIdx chosen)
        · split
          · exact .stay _ _
          · rename_i path chosen
            exact .commit (perm_cons_eraseIdx chosen)
  | sweeping progress => exact .sweep
  | swept progress => exact .close
  | returned report => exact .stay _ _

section Step

variable {tree : FileTree} {call : ScanCall} {point next : ScanPoint} {indexer after : Indexer}
  (step : Advances tree call point indexer next after)
include step

/-- A step leaves the workspace and the number of the newest scan alone. -/
theorem Advances.frame :
    after.workspace = indexer.workspace ∧ after.generation = indexer.generation := by
  cases step with
  | commit => exact ⟨(commit_frame _ _ _).1, (commit_frame _ _ _).2.1⟩
  | sweep =>
      rw [sweep_eq]
      exact ⟨rfl, rfl⟩
  | _ => exact ⟨rfl, rfl⟩

theorem Advances.hasHistory (history : indexer.index.HasHistory) : after.index.HasHistory := by
  cases step with
  | clear => exact SymbolIndex.empty_hasHistory
  | commit => exact hasHistory_commit history _ _
  | sweep => exact hasHistory_sweep history _
  | _ => exact history

end Step

/-! ## The points of a scan -/

theorem isPlain_of_mem_collect {workspace : Workspace} {tree : FileTree}
    (wellFormed : tree.WellFormed) {path : Path} (member : path ∈ workspace.collect tree) :
    path.IsPlain := by
  obtain ⟨names, found, rfl⟩ := (Workspace.mem_collect wellFormed).mp member
  exact Path.ofNames_isPlain (found.isEntryName wellFormed)

/-- The files that the scan came across have in the index the symbols that they have now. Of the files
that a walk finds the others are left. -/
structure Committed (tree : FileTree) (left : List Path) (progress : ScanProgress)
    (indexer : Indexer) : Prop extends Orderly tree indexer where
  collected : (left ++ progress.seen).Perm (indexer.workspace.collect tree)
  read : ∀ path ∈ progress.seen,
    indexer.index.symbolsInFile path = indexer.workspace.symbolsOf tree path
  accounts : progress.Accounts indexer.workspace tree

/-- What a scan that was not cancelled leaves behind, and what it reports. -/
structure Completed (tree : FileTree) (report : ScanReport) (indexer : Indexer) : Prop
    extends UpToDate tree indexer where
  ready : indexer.status = .ready
  indexed : report.symbolsIndexed = indexer.index.symbolCount
  counted : report.filesScanned + report.filesFailed = (indexer.workspace.collect tree).length
  failed : report.filesFailed = report.errors.length
  errors : Lists (compareOn FileError.path) report.errors
    { error | ∃ path ∈ indexer.workspace.collect tree, indexer.workspace.failure? tree path = some error }

/-- What holds at a point of a scan. -/
def HoldsAt (tree : FileTree) (call : ScanCall) : ScanPoint → Indexer → Prop
  | .entered, indexer => call.afresh = false → indexer.index.HasHistory
  | .clearing, _ => True
  | .cleared, indexer => indexer.index.HasHistory
  | .starting, indexer => indexer.index.HasHistory
  | .announced, indexer => indexer.index.HasHistory
  | .committing left taken progress, indexer =>
    indexer.isStale call.generation = false → indexer.Committed tree (left ++ taken) progress
  | .sweeping progress, indexer => indexer.Committed tree [] progress
  | .swept progress, indexer =>
    indexer.UpToDate tree ∧ progress.Accounts indexer.workspace tree ∧
      progress.seen.Perm (indexer.workspace.collect tree)
  | .returned report, indexer => report.cancelled = false → indexer.Completed tree report

/-- It does not matter in which order files are left. -/
theorem Committed.of_perm {tree : FileTree} {left rest : List Path} {progress : ScanProgress}
    {indexer : Indexer} (committed : indexer.Committed tree left progress) (perm : left.Perm rest) :
    indexer.Committed tree rest progress :=
  ⟨committed.toOrderly, (perm.symm.append_right _).trans committed.collected, committed.read,
    committed.accounts⟩

/-- One more file is committed. -/
theorem Committed.commit {tree : FileTree} (wellFormed : tree.WellFormed) {left : List Path}
    {path : Path} {progress : ScanProgress} {indexer : Indexer}
    (committed : indexer.Committed tree (path :: left) progress) :
    (indexer.commit tree path).2.Committed tree left
      (progress.add path (indexer.commit tree path).1) := by
  obtain ⟨sameWorkspace, -, -⟩ := commit_frame tree indexer path
  have collected : (left ++ path :: progress.seen).Perm (indexer.workspace.collect tree) :=
    List.perm_middle.trans committed.collected
  have isPlain {other : Path} (member : other ∈ path :: progress.seen) : other.IsPlain :=
    isPlain_of_mem_collect wellFormed (collected.subset (List.mem_append_right _ member))
  refine ⟨committed.toOrderly.commit _, ?_, ?_, ?_⟩
  · rw [ScanProgress.add_seen, sameWorkspace]
    exact collected
  · intro other member
    rw [ScanProgress.add_seen] at member
    rw [symbolsInFile_commit _ committed.toOrderly, sameWorkspace]
    split_ifs with same
    · rw [(isPlain member).eq_of_same (isPlain List.mem_cons_self) same]
    · rcases List.mem_cons.mp member with rfl | old
      · exact absurd (Path.Same.refl _) same
      · exact committed.read other old
  · rw [sameWorkspace]
    exact committed.accounts.commit path

/-- When all files are committed, a sweep drops the rest of the index. -/
theorem Committed.sweep {tree : FileTree} (wellFormed : tree.WellFormed) {progress : ScanProgress}
    {indexer : Indexer} (committed : indexer.Committed tree [] progress) :
    (indexer.sweep progress.seen).UpToDate tree := by
  have history := committed.history
  have orderly : (indexer.sweep progress.seen).Orderly tree := by
    refine ⟨hasHistory_sweep history _, ?_⟩
    rw [sweep_eq]
    exact committed.remembers
  have sameWorkspace : (indexer.sweep progress.seen).workspace = indexer.workspace := by
    rw [sweep_eq]
  refine ⟨orderly, ?_, ?_⟩
  · intro names found
    rw [sameWorkspace] at found ⊢
    have seen : Path.ofNames names ∈ progress.seen :=
      committed.collected.mem_iff.mpr (found.mem_collect wellFormed)
    rw [symbolsInFile_sweep_of_seen history ⟨_, seen, Path.Same.refl _⟩]
    exact committed.read _ seen
  · intro path apart
    rw [sameWorkspace] at apart
    apply symbolsInFile_sweep_of_unseen history
    intro other member
    obtain ⟨names, found, rfl⟩ :=
      (Workspace.mem_collect wellFormed).mp (committed.collected.subset member)
    exact apart names found

theorem UpToDate.close {tree : FileTree} (wellFormed : tree.WellFormed) {progress : ScanProgress}
    {indexer : Indexer} (upToDate : indexer.UpToDate tree)
    (accounts : progress.Accounts indexer.workspace tree)
    (seen : progress.seen.Perm (indexer.workspace.collect tree)) :
    (indexer.close progress).2.Completed tree (indexer.close progress).1 := by
  have sorted : (FileError.sort progress.errors).length = progress.errors.length :=
    List.length_mergeSort _
  refine ⟨upToDate.of_index_eq rfl rfl rfl, rfl, rfl, ?_, sorted.symm, ?_⟩
  · exact accounts.scanned.trans seen.length_eq
  · exact accounts.lists_errors wellFormed seen

/-- Each step of a scan keeps what holds at the points of the scan. -/
theorem Advances.holdsAt {tree : FileTree} (wellFormed : tree.WellFormed) {call : ScanCall}
    {point next : ScanPoint} {indexer after : Indexer}
    (step : Advances tree call point indexer next after) (holds : indexer.HoldsAt tree call point) :
    after.HoldsAt tree call next := by
  cases step with
  | stay => exact holds
  | supersede =>
      intro completed
      simp [ScanReport.superseded] at completed
  | keepIndex again => exact holds again
  | beginClearing => trivial
  | clear => exact SymbolIndex.empty_hasHistory
  | begin => exact holds
  | announce => exact holds
  | collect =>
      intro _
      refine ⟨⟨holds, PackageCache.empty_remembers _ _⟩, ?_, ?_, ⟨List.Perm.nil, rfl⟩⟩
      · simp [ScanProgress.none]
      · simp [ScanProgress.none]
  | passOver stale =>
      intro fresh
      simp [stale] at fresh
  | @take left rest taken path _ _ fresh chosen =>
      intro _
      apply (holds fresh).of_perm
      rw [← List.append_assoc]
      exact (chosen.append_right taken).trans (List.perm_append_singleton path (rest ++ taken)).symm
  | @commit left taken rest path progress _ chosen =>
      intro stillFresh
      have fresh : indexer.isStale call.generation = false := by
        rwa [isStale, (commit_frame tree indexer path).2.1] at stillFresh
      apply Committed.commit wellFormed
      exact (holds fresh).of_perm ((chosen.append_left _).trans List.perm_middle)
  | finish fresh => exact holds fresh
  | @sweep progress _ =>
      change indexer.Committed tree [] progress at holds
      have sameWorkspace : (indexer.sweep progress.seen).workspace = indexer.workspace := by
        rw [sweep_eq]
      refine ⟨holds.sweep wellFormed, ?_, ?_⟩
      · rw [sameWorkspace]
        exact holds.accounts
      · rw [sameWorkspace]
        exact holds.collected
  | close =>
      obtain ⟨upToDate, accounts, seen⟩ := holds
      exact fun _ => upToDate.close wellFormed accounts seen

/-! ## Scans that nothing interrupts -/

theorem Advances.uncancelled {tree : FileTree} {call : ScanCall} {point next : ScanPoint}
    {indexer after : Indexer} (step : Advances tree call point indexer next after)
    (fresh : indexer.isStale call.generation = false) (uncancelled : point.Uncancelled) :
    next.Uncancelled := by
  cases step with
  | stay => exact uncancelled
  | supersede stale => simp [stale] at fresh
  | close => rfl
  | _ => trivial

/-- The steps of a scan that takes, of the files that are left, the ones at the given places. -/
def advanceAlong (tree : FileTree) (call : ScanCall) :
    (picks : List Nat) → ScanPoint → Indexer → ScanPoint × Indexer
  | [], point, indexer => (point, indexer)
  | pick :: picks, point, indexer =>
    let (point, indexer) := advance tree call pick point indexer
    advanceAlong tree call picks point indexer

/-- A run of the newest scan keeps what holds at its points, and it is not cancelled. -/
theorem advanceAlong_holdsAt {tree : FileTree} (wellFormed : tree.WellFormed) {call : ScanCall}
    (picks : List Nat) {point : ScanPoint} {indexer : Indexer}
    (fresh : indexer.isStale call.generation = false) (uncancelled : point.Uncancelled)
    (holds : indexer.HoldsAt tree call point) :
    let last := advanceAlong tree call picks point indexer
    last.2.HoldsAt tree call last.1 ∧ last.1.Uncancelled ∧ last.2.workspace = indexer.workspace := by
  induction picks generalizing point indexer with
  | nil => exact ⟨holds, uncancelled, rfl⟩
  | cons pick picks ih =>
      have step := advance_advances tree call pick point indexer
      obtain ⟨sameWorkspace, sameGeneration⟩ := step.frame
      have stillFresh : (advance tree call pick point indexer).2.isStale call.generation = false := by
        rwa [isStale, sameGeneration]
      obtain ⟨last, lastUncancelled, sameLast⟩ :=
        ih stillFresh (step.uncancelled fresh uncancelled) (step.holdsAt wellFormed holds)
      exact ⟨last, lastUncancelled, sameLast.trans sameWorkspace⟩

/-- A full scan that nothing interrupts, in whichever order it takes the files. -/
def Scans (tree : FileTree) (afresh : Bool) (before : Indexer) (report : ScanReport)
    (after : Indexer) : Prop :=
  ∃ picks, advanceAlong tree (before.callScan afresh).1 picks .entered (before.callScan afresh).2 =
    (.returned report, after)

theorem Scans.completed {tree : FileTree} (wellFormed : tree.WellFormed) {afresh : Bool}
    {before after : Indexer} {report : ScanReport}
    (history : afresh = false → before.index.HasHistory) (scans : Scans tree afresh before report after) :
    report.cancelled = false ∧ after.Completed tree report ∧ after.workspace = before.workspace := by
  obtain ⟨picks, runs⟩ := scans
  have start : (before.callScan afresh).2.HoldsAt tree (before.callScan afresh).1 .entered := history
  have fresh : (before.callScan afresh).2.isStale (before.callScan afresh).1.generation = false := by
    simp [isStale, callScan]
  have begins : ScanPoint.entered.Uncancelled := trivial
  have last := advanceAlong_holdsAt wellFormed picks fresh begins start
  rw [runs] at last
  exact ⟨last.2.1, last.1 last.2.1, last.2.2⟩

/-- A scan into an empty index that nothing interrupted, in whichever order it took the files. -/
def Rebuilt (tree : FileTree) (before after : Indexer) : Prop :=
  ∃ picks report, advanceAlong tree (before.callScan true).1 picks .entered
    (before.callScan true).2 = (.returned report, after)

theorem Rebuilt.upToDate {tree : FileTree} (wellFormed : tree.WellFormed) {before after : Indexer}
    (rebuilt : Rebuilt tree before after) :
    after.UpToDate tree ∧ after.status = .ready ∧ after.workspace = before.workspace := by
  obtain ⟨picks, report, runs⟩ := rebuilt
  have scans : Scans tree true before report after := ⟨picks, runs⟩
  obtain ⟨-, completed, sameWorkspace⟩ := scans.completed wellFormed (by simp)
  exact ⟨completed.toUpToDate, completed.ready, sameWorkspace⟩

/-! ## Scans come to their end -/

theorem stepsLeft_advance (tree : FileTree) (call : ScanCall) {point : ScanPoint} (indexer : Indexer)
    (unfinished : ∀ report, point ≠ .returned report) :
    (advance tree call 0 point indexer).1.stepsLeft (indexer.workspace.collect tree).length <
      point.stepsLeft (indexer.workspace.collect tree).length := by
  cases point with
  | entered =>
      simp only [advance]
      split_ifs <;> simp [ScanPoint.stepsLeft]
  | clearing => simp [advance, ScanPoint.stepsLeft]
  | cleared =>
      simp only [advance]
      split_ifs <;> simp [ScanPoint.stepsLeft]
  | starting => simp [advance, ScanPoint.stepsLeft]
  | announced => simp [advance, ScanPoint.stepsLeft]
  | committing left taken progress =>
      cases left with
      | cons path left =>
          simp only [advance, List.getElem?_cons_zero, List.eraseIdx_cons_zero]
          split_ifs
          · simp [ScanPoint.stepsLeft]
          · simp only [ScanPoint.stepsLeft, List.length_append, List.length_cons, List.length_nil]
            omega
      | nil =>
          cases taken with
          | nil =>
              simp only [advance]
              split_ifs <;> simp [ScanPoint.stepsLeft]
          | cons path taken => simp [advance, ScanPoint.stepsLeft]
  | sweeping progress => simp [advance, ScanPoint.stepsLeft]
  | swept progress => simp [advance, ScanPoint.stepsLeft]
  | returned report => exact absurd rfl (unfinished report)

theorem advanceTimes_returned (tree : FileTree) (call : ScanCall) {steps : Nat} {point : ScanPoint}
    {indexer : Indexer}
    (enough : point.stepsLeft (indexer.workspace.collect tree).length ≤ steps) :
    ∃ report after, advanceTimes tree call steps point indexer = (.returned report, after) := by
  induction steps generalizing point indexer with
  | zero =>
      cases point with
      | returned report => exact ⟨report, indexer, rfl⟩
      | _ => simp [ScanPoint.stepsLeft] at enough
  | succ steps ih =>
      have sameWorkspace := (advance_advances tree call 0 point indexer).frame.1
      have fewer : (advance tree call 0 point indexer).1.stepsLeft
          (indexer.workspace.collect tree).length ≤ steps := by
        by_cases unfinished : ∀ report, point ≠ .returned report
        · have less := stepsLeft_advance tree call indexer unfinished
          omega
        · simp only [ne_eq, not_forall, not_not] at unfinished
          obtain ⟨report, rfl⟩ := unfinished
          exact Nat.zero_le _
      rw [← sameWorkspace] at fewer
      exact ih fewer

theorem advanceTimes_eq_advanceAlong (tree : FileTree) (call : ScanCall) (steps : Nat)
    (point : ScanPoint) (indexer : Indexer) :
    advanceTimes tree call steps point indexer =
      advanceAlong tree call (List.replicate steps 0) point indexer := by
  induction steps generalizing point indexer with
  | zero => rfl
  | succ steps ih => exact ih _ _

/-- A scan that is left to itself comes to its end. -/
theorem scan_scans (tree : FileTree) (afresh : Bool) (indexer : Indexer) :
    Scans tree afresh indexer (indexer.scan tree afresh).1 (indexer.scan tree afresh).2 := by
  obtain ⟨report, after, ends⟩ : ∃ report after,
      advanceTimes tree (indexer.callScan afresh).1 (indexer.cancel.scanLength tree) .entered
        indexer.cancel = (.returned report, after) :=
    advanceTimes_returned tree _ le_rfl
  have finished : indexer.scan tree afresh = (report, after) := by
    change finishScan tree (indexer.callScan afresh).1 .entered indexer.cancel = _
    rw [finishScan, ends]
  rw [finished]
  exact ⟨_, (advanceTimes_eq_advanceAlong _ _ _ _ _).symm.trans ends⟩

theorem rebuild_rebuilt (tree : FileTree) (indexer : Indexer) :
    Rebuilt tree indexer (indexer.rebuild tree).2 := by
  obtain ⟨picks, runs⟩ := scan_scans tree true indexer
  exact ⟨picks, _, runs⟩

end Indexer

end AutoImport
