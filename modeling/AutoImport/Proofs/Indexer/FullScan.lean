import AutoImport.Proofs.Indexer.Concurrent

/-!
# A full scan depends on the files only

Whatever happened to an indexer before — scans that were superseded half way, updates of single files,
trees of files that changed — a full scan that comes to its end has the same outcome, which is told by
the files as they are now. Other calls may be made while the scan goes on.
-/

namespace AutoImport

namespace Workspace

theorem symbolsOf_of_ok {workspace : Workspace} {tree : FileTree} {path : Path}
    {exports : List Source.Export} (read : Indexer.exportsOfFile tree workspace path = .ok exports) :
    workspace.symbolsOf tree path =
      FileContents.firstOfEachName path (exports.map (Indexer.symbolOf path
        (PackageCache.currentSpecifier? tree workspace.rootPath path))) := by
  rw [← SymbolIndex.attributed_eq_firstOfEachName]
  unfold symbolsOf
  split
  · rename_i failure again
    simp [read] at again
  · rename_i others again
    rw [Except.ok.inj (again.symm.trans read)]

theorem symbolsOf_of_error {workspace : Workspace} {tree : FileTree} {path : Path}
    {failure : FileFailure} (read : Indexer.exportsOfFile tree workspace path = .error failure) :
    workspace.symbolsOf tree path = [] := by
  unfold symbolsOf
  split
  · rfl
  · rename_i exports again
    simp [read] at again

end Workspace

namespace Concurrent

/-- The indexer and its calls after events, between which files may change. -/
def through (system : Concurrent) (history : List (FileTree × CallEvent)) : Concurrent :=
  history.foldl (fun system (tree, event) => system.after tree event) system

/-- An indexer with its calls as it may come about from a new one. -/
def Reached (workspace : Workspace) (system : Concurrent) : Prop :=
  ∃ history, (idle (.new workspace)).through history = system

theorem idle_regular {workspace : Workspace} {indexer : Indexer}
    (history : indexer.index.HasHistory) (same : indexer.workspace = workspace) :
    (idle indexer).Regular workspace :=
  ⟨history, same, by simp [idle], by simp [idle]⟩

theorem Reached.regular {workspace : Workspace} {system : Concurrent}
    (reached : system.Reached workspace) : system.Regular workspace := by
  obtain ⟨history, rfl⟩ := reached
  have start : (idle (.new workspace)).Regular workspace :=
    idle_regular SymbolIndex.empty_hasHistory rfl
  generalize idle (.new workspace) = system at start
  induction history generalizing system with
  | nil => exact start
  | cons event history ih => exact ih _ (start.after event.1 event.2)

/-- A full scan of files that do not change meanwhile comes to its end, and is not cancelled: it waits
for its turn at first or is not called for yet, and its last step brings its report. -/
structure CompletesScan (tree : FileTree) (afresh : Bool) (place : Nat) (report : ScanReport)
    (before after : Concurrent) : Prop where
  pending : ∀ point ∈ before.calls[place]?, point.isWaiting
  ends : ∃ events pick generation point,
    (before.run tree events).calls[place]? = some (.scanning ⟨afresh, generation⟩ point) ∧
      after = (before.run tree events).after tree (.step place pick)
  returned : after.calls[place]? = some (.scanReturned report)
  complete : report.cancelled = false

theorem CompletesScan.completed {tree : FileTree} (wellFormed : tree.WellFormed)
    {workspace : Workspace} {before after : Concurrent} {afresh : Bool} {place : Nat}
    {report : ScanReport} (completes : CompletesScan tree afresh place report before after)
    (reached : before.Reached workspace) :
    after.indexer.Completed tree report ∧ after.indexer.workspace = workspace := by
  obtain ⟨pending, ⟨events, pick, generation, point, there, rfl⟩, returned, complete⟩ := completes
  have regular := reached.regular.run tree events
  have start (call : ScanCall) (point : ScanPoint)
      (there : before.calls[place]? = some (.scanning call point)) :
      before.indexer.HoldsAt tree call point := by
    have waiting := pending _ there
    simp [CallPoint.isWaiting] at waiting
  have holds := reached.regular.holdsAt_run wellFormed start events
  refine ⟨?_, (regular.after tree (.step place pick)).workspace⟩
  obtain ⟨next, indexer, steps, same⟩ := after_step there tree pick
  rw [same] at returned ⊢
  rw [List.getElem?_set_self (List.getElem?_eq_some_iff.mp there).1] at returned
  obtain rfl := Option.some.inj returned
  cases steps with
  | endScan step => exact step.holdsAt wellFormed (holds _ _ there) complete

/-- A full scan leaves exactly the exports of the files that a walk finds, and accounts for every such
file. So the outcome of two scans is the same, whatever went on before and while they ran, whichever order
the files were taken in, and whether or not the index was emptied first. -/
theorem index_after_full_scan {tree : FileTree} (wellFormed : tree.WellFormed) {workspace : Workspace}
    {before after otherBefore otherAfter : Concurrent} {afresh otherAfresh : Bool}
    {place otherPlace : Nat} {report otherReport : ScanReport} (reached : before.Reached workspace)
    (completes : CompletesScan tree afresh place report before after)
    (otherReached : otherBefore.Reached workspace)
    (otherCompletes : CompletesScan tree otherAfresh otherPlace otherReport otherBefore otherAfter) :
    after.indexer.index.AnswersAs otherAfter.indexer.index ∧
      (∀ path ∈ workspace.collect tree, ∀ exports,
        Indexer.exportsOfFile tree workspace path = .ok exports →
          after.indexer.index.symbolsInFile path =
            FileContents.firstOfEachName path (exports.map (Indexer.symbolOf path
              (PackageCache.currentSpecifier? tree workspace.rootPath path)))) ∧
      (∀ path, (∀ found ∈ workspace.collect tree, path.Same found →
        ∃ failure, Indexer.exportsOfFile tree workspace found = .error failure) →
          after.indexer.index.symbolsInFile path = []) ∧
      report.filesScanned + report.filesFailed = (workspace.collect tree).length ∧
      report.filesFailed = report.errors.length ∧
      Lists (compareOn FileError.path) report.errors
        { error | ∃ path ∈ workspace.collect tree, workspace.failure? tree path = some error } ∧
      report.symbolsIndexed = after.indexer.index.symbolCount ∧ after.indexer.status = .ready := by
  obtain ⟨completed, rfl⟩ := completes.completed wellFormed reached
  obtain ⟨otherCompleted, same⟩ := otherCompletes.completed wellFormed otherReached
  have found {path : Path} (member : path ∈ after.indexer.workspace.collect tree) :
      after.indexer.index.symbolsInFile path = after.indexer.workspace.symbolsOf tree path := by
    obtain ⟨names, found, rfl⟩ := (Workspace.mem_collect wellFormed).mp member
    exact completed.found names found
  refine ⟨completed.toUpToDate.answersAs otherCompleted.toUpToDate same.symm, ?_, ?_,
    completed.counted, completed.failed, completed.errors, completed.indexed, completed.ready⟩
  · intro path member exports read
    rw [found member, Workspace.symbolsOf_of_ok read]
  · intro path fails
    by_cases collected : ∃ found ∈ after.indexer.workspace.collect tree, path.Same found
    · obtain ⟨other, member, same⟩ := collected
      obtain ⟨failure, read⟩ := fails other member same
      rw [SymbolIndex.symbolsInFile_congr _ same, found member, Workspace.symbolsOf_of_error read]
    · apply completed.others
      intro names finds same
      exact collected ⟨_, finds.mem_collect wellFormed, same⟩

/-! ## Scans do come to their end -/

section Alone

variable {tree : FileTree} {pick : Nat} {busy : Bool} {call : ScanCall} {point : ScanPoint}
  {indexer : Indexer}

theorem advanceCall_of_returned {report : ScanReport}
    (ends : (indexer.advance tree call pick point).1 = .returned report) :
    advanceCall tree pick busy (.scanning call point) indexer =
      (.scanReturned report, (indexer.advance tree call pick point).2) := by
  simp only [advanceCall]
  split
  · rename_i other after reached
    rw [reached] at ends ⊢
    rw [ScanPoint.returned.inj ends]
  · rename_i next after unfinished reached
    rw [reached] at ends
    exact absurd ends (unfinished report)

theorem advanceCall_of_unfinished
    (unfinished : ∀ report, (indexer.advance tree call pick point).1 ≠ .returned report) :
    advanceCall tree pick busy (.scanning call point) indexer =
      (.scanning call (indexer.advance tree call pick point).1,
        (indexer.advance tree call pick point).2) := by
  simp only [advanceCall]

end Alone

section Step

variable {tree : FileTree} {place pick : Nat} {call : ScanCall} {point : ScanPoint}
  {system : Concurrent}

/-- The last step of a scan that is not stale returns a report that it was not cancelled. -/
theorem after_last_step {report : ScanReport}
    (there : system.calls[place]? = some (.scanning call point))
    (fresh : system.indexer.isStale call.generation = false)
    (unfinished : ∀ other, point ≠ .returned other)
    (ends : (system.indexer.advance tree call pick point).1 = .returned report) :
    (system.after tree (.step place pick)).calls[place]? = some (.scanReturned report) ∧
      report.cancelled = false := by
  have uncancelled : point.Uncancelled := by
    cases point with
    | returned other => exact absurd rfl (unfinished other)
    | _ => trivial
  constructor
  · simp only [after, there, advanceCall_of_returned ends]
    exact List.getElem?_set_self (List.getElem?_eq_some_iff.mp there).1
  · have last := (Indexer.advance_advances tree call pick point system.indexer).uncancelled fresh
      uncancelled
    rw [ends] at last
    exact last

theorem after_unfinished_step (there : system.calls[place]? = some (.scanning call point))
    (unfinished : ∀ report, (system.indexer.advance tree call pick point).1 ≠ .returned report) :
    system.after tree (.step place pick) =
      ⟨(system.indexer.advance tree call pick point).2,
        system.calls.set place (.scanning call (system.indexer.advance tree call pick point).1)⟩ := by
  simp only [after, there, advanceCall_of_unfinished unfinished]

end Step

/-- The newest scan, left to itself, comes to its end and is not cancelled. -/
theorem scanning_ends (tree : FileTree) {place bound : Nat} {call : ScanCall} {point : ScanPoint}
    {system : Concurrent} (there : system.calls[place]? = some (.scanning call point))
    (fresh : system.indexer.isStale call.generation = false)
    (unfinished : ∀ report, point ≠ .returned report)
    (bounded : point.stepsLeft (system.indexer.workspace.collect tree).length ≤ bound) :
    ∃ steps last report,
      let before := system.run tree (List.replicate steps (.step place 0))
      before.calls[place]? = some (.scanning call last) ∧
        (before.after tree (.step place 0)).calls[place]? = some (.scanReturned report) ∧
        report.cancelled = false := by
  -- The induction is on the steps that are left: each step leaves fewer of them.
  induction bound generalizing system point with
  | zero =>
      have fewer := Indexer.stepsLeft_advance tree call system.indexer unfinished
      omega
  | succ bound ih =>
      by_cases ends : ∃ report, (system.indexer.advance tree call 0 point).1 = .returned report
      · obtain ⟨report, ends⟩ := ends
        exact ⟨0, point, report, there, after_last_step there fresh unfinished ends⟩
      · have ongoing (report : ScanReport) :
            (system.indexer.advance tree call 0 point).1 ≠ .returned report :=
          fun same => ends ⟨report, same⟩
        have moved := after_unfinished_step there ongoing
        have fewer := Indexer.stepsLeft_advance tree call system.indexer unfinished
        obtain ⟨sameWorkspace, sameGeneration⟩ :=
          (Indexer.advance_advances tree call 0 point system.indexer).frame
        have onward : (system.after tree (.step place 0)).calls[place]? =
            some (.scanning call (system.indexer.advance tree call 0 point).1) := by
          rw [moved]
          exact List.getElem?_set_self (List.getElem?_eq_some_iff.mp there).1
        obtain ⟨steps, last, report, found⟩ := ih onward
          (by rw [moved, Indexer.isStale, sameGeneration]; exact fresh) ongoing
          (by rw [moved, sameWorkspace]; omega)
        exact ⟨steps + 1, last, report, found⟩

/-- When no call is at work, a full scan that is called for can come to its end. -/
theorem exists_completesScan (tree : FileTree) {system : Concurrent} (free : system.isBusy = false)
    (afresh : Bool) :
    ∃ report after, CompletesScan tree afresh system.calls.length report system after := by
  let called := system.after tree (.callScan afresh)
  have waits : called.calls[system.calls.length]? =
      some (.scanWaiting (system.indexer.callScan afresh).1) :=
    List.getElem?_concat_length
  have stillFree : called.isBusy = false := by
    change (system.calls ++ [_]).any CallPoint.isAtWork = false
    rw [List.any_append, show system.calls.any CallPoint.isAtWork = false from free]
    rfl
  have entered : (called.after tree (.step system.calls.length 0)).calls[system.calls.length]? =
      some (.scanning (system.indexer.callScan afresh).1 .entered) := by
    simp only [after, waits, advanceCall, stillFree]
    exact List.getElem?_set_self (List.getElem?_eq_some_iff.mp waits).1
  have fresh : (called.after tree (.step system.calls.length 0)).indexer.isStale
      (system.indexer.callScan afresh).1.generation = false := by
    simp only [after, waits, advanceCall]
    simp [called, after, Indexer.callScan, Indexer.isStale]
  obtain ⟨steps, last, report, there, returned, complete⟩ :=
    scanning_ends tree entered fresh (by simp) le_rfl
  refine ⟨report, _, ?_, ?_, returned, complete⟩
  · simp
  · exact ⟨.callScan afresh :: .step system.calls.length 0 :: List.replicate steps _, 0, _, last, there, rfl⟩

/-- A source that reads, and one that does not. -/
def looseSources : FileTree :=
  ⟨[(["w"], .directory), (["w", "a.ts"], .file (.text "export let a")),
    (["w", "b.ts"], .file (.text "export let"))]⟩

/-- The directory `w` with its sources. -/
def looseWorkspace : Workspace :=
  ⟨["w"], ⟨(Glob.Pattern.parse? "**/*.ts").toList, [], []⟩, true⟩

/-- A file was indexed that is gone by now, and a scan was given up after it had begun. -/
def leftovers : Concurrent :=
  let before : FileTree := ⟨[(["w"], .directory), (["w", "c.ts"], .file (.text "export let c"))]⟩
  (idle (.new looseWorkspace)).through ([.callUpdate ⟨"c.ts"⟩, .step 0 0, .step 0 0, .step 0 0,
    .callScan true, .step 1 0, .cancel, .step 1 0].map fun event => (before, event))

theorem index_after_full_scan_of_leftovers :
    leftovers.indexer.index.listFiles = [⟨"c.ts"⟩] ∧
      ∃ report after otherReport otherAfter,
        CompletesScan looseSources false 2 report leftovers after ∧
          CompletesScan looseSources true 0 otherReport (idle (.new looseWorkspace)) otherAfter ∧
          after.indexer.index.AnswersAs otherAfter.indexer.index ∧
          after.indexer.index.symbolsInFile (Path.ofNames ["c.ts"]) = [] ∧
          report.filesScanned + report.filesFailed = (looseWorkspace.collect looseSources).length := by
  have wellFormed : looseSources.WellFormed := by decide
  have free : leftovers.isBusy = false := by decide +kernel
  have anew : (idle (.new looseWorkspace)).isBusy = false := rfl
  obtain ⟨report, after, completes⟩ := exists_completesScan looseSources free false
  obtain ⟨otherReport, otherAfter, otherCompletes⟩ := exists_completesScan looseSources anew true
  obtain ⟨answers, -, others, counted, -⟩ :=
    index_after_full_scan wellFormed ⟨_, rfl⟩ completes ⟨[], rfl⟩ otherCompletes
  refine ⟨by decide +kernel, report, after, otherReport, otherAfter, completes, otherCompletes, answers,
    others _ ?_, counted⟩
  intro found member same
  obtain ⟨names, found, rfl⟩ := (Workspace.mem_collect wellFormed).mp member
  obtain ⟨content, there⟩ := found.present
  obtain rfl := Workspace.names_eq_of_same (by decide) (found.isEntryName wellFormed) same
  have gone : looseSources.node? (looseWorkspace.root ++ ["c.ts"]) = none := by decide
  simp [gone] at there

end Concurrent

end AutoImport
