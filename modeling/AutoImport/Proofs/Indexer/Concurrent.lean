import AutoImport.Indexer.Concurrent
import AutoImport.Proofs.Indexer.Update

/-!
# Calls that take turns

What a step of one call can do is told once, by `CallPoint.Steps`. While one call is at work the others
leave the indexer alone, and a call that was made meanwhile only makes it stale. So what holds at a point
of a scan still holds when the scan goes on, whatever happened in between.
-/

namespace AutoImport

theorem getElem?_concat_cases {α : Type} {items : List α} {last item : α} {place : Nat}
    (there : (items ++ [last])[place]? = some item) :
    items[place]? = some item ∨ place = items.length ∧ item = last := by
  rw [List.getElem?_append] at there
  split at there
  · exact .inl there
  · rename_i beyond
    have inRange := (List.getElem?_eq_some_iff.mp there).1
    rw [List.length_singleton] at inRange
    exact .inr ⟨by omega, List.mem_singleton.mp (List.mem_of_getElem? there)⟩

namespace CallPoint

/-- The full scan that a call is, unless it is over. -/
def scan? : CallPoint → Option ScanCall
  | .scanWaiting call => some call
  | .scanning call _ => some call
  | _ => none

/-- What a step of a call can do. -/
inductive Steps (tree : FileTree) (busy : Bool) : CallPoint → Indexer → CallPoint → Indexer → Prop where
  /-- The call is over, or it has to wait. -/
  | rest {point : CallPoint} {indexer : Indexer} (idle : point.isAtWork = false) :
      Steps tree busy point indexer point indexer
  | enter {call : ScanCall} {indexer : Indexer} (free : busy = false) :
      Steps tree busy (.scanWaiting call) indexer (.scanning call .entered) indexer
  | scan {call : ScanCall} {point next : ScanPoint} {indexer after : Indexer}
      (step : Indexer.Advances tree call point indexer next after)
      (unfinished : ∀ report, next ≠ .returned report) :
      Steps tree busy (.scanning call point) indexer (.scanning call next) after
  | endScan {call : ScanCall} {point : ScanPoint} {report : ScanReport} {indexer after : Indexer}
      (step : Indexer.Advances tree call point indexer (.returned report) after) :
      Steps tree busy (.scanning call point) indexer (.scanReturned report) after
  | skip {path : Path} {indexer : Indexer} (free : busy = false) :
      Steps tree busy (.updateWaiting path) indexer (.updateReturned .skipped) indexer
  | beginUpdate {path relative : Path} {indexer : Indexer} (free : busy = false)
      (seen : indexer.workspace.relativize? tree path = some relative) :
      Steps tree busy (.updateWaiting path) indexer (.updating relative indexer.status)
        (indexer.announce (.updating relative))
  | update {path : Path} {before : IndexerStatus} {indexer : Indexer} :
      Steps tree busy (.updating path before) indexer
        (.updated (indexer.updateFile tree path).1 before) (indexer.updateFile tree path).2
  | endUpdate {outcome : FileOutcome} {before : IndexerStatus} {indexer : Indexer} :
      Steps tree busy (.updated outcome before) indexer (.updateReturned outcome)
        (indexer.endUpdate before)

theorem steps_advanceCall (tree : FileTree) (pick : Nat) (busy : Bool) (point : CallPoint)
    (indexer : Indexer) :
    Steps tree busy point indexer (Concurrent.advanceCall tree pick busy point indexer).1
      (Concurrent.advanceCall tree pick busy point indexer).2 := by
  cases point with
  | scanWaiting call =>
      cases busy with
      | true => exact .rest rfl
      | false => exact .enter rfl
  | scanning call point =>
      have step := Indexer.advance_advances tree call pick point indexer
      simp only [Concurrent.advanceCall]
      split
      · rename_i report after reached
        rw [reached] at step
        exact .endScan step
      · rename_i next after unfinished reached
        rw [reached] at step
        exact .scan step unfinished
  | updateWaiting path =>
      cases busy with
      | true => exact .rest rfl
      | false =>
          simp only [Concurrent.advanceCall]
          split
          · contradiction
          · split
            · exact .skip rfl
            · rename_i relative seen
              exact .beginUpdate rfl seen
  | updating path before =>
      simp only [Concurrent.advanceCall]
      exact .update
  | updated outcome before => exact .endUpdate
  | scanReturned report => exact .rest rfl
  | updateReturned outcome => exact .rest rfl

section Steps

variable {tree : FileTree} {busy : Bool} {point next : CallPoint} {indexer after : Indexer}
  (steps : Steps tree busy point indexer next after)
include steps

/-- A step leaves the workspace and the number of the newest scan alone. -/
theorem Steps.frame :
    after.workspace = indexer.workspace ∧ after.generation = indexer.generation := by
  cases steps with
  | scan step => exact step.frame
  | endScan step => exact step.frame
  | update =>
      rw [Indexer.updateFile_snd]
      split
      · exact ⟨(Indexer.commit_frame _ _ _).1, (Indexer.commit_frame _ _ _).2.1⟩
      · exact ⟨rfl, rfl⟩
  | _ => exact ⟨rfl, rfl⟩

theorem Steps.hasHistory (history : indexer.index.HasHistory) : after.index.HasHistory := by
  cases steps with
  | scan step => exact step.hasHistory history
  | endScan step => exact step.hasHistory history
  | update =>
      rw [Indexer.updateFile_snd]
      split
      · exact Indexer.hasHistory_commit history _ _
      · exact history.removeFile _
  | _ => exact history

/-- A call that is not at work begins its work only when no other one is at work. -/
theorem Steps.eq_of_idle (idle : point.isAtWork = false) (blocked : busy = true) :
    next = point ∧ after = indexer := by
  cases steps with
  | rest => exact ⟨rfl, rfl⟩
  | enter free => simp [blocked] at free
  | skip free => simp [blocked] at free
  | beginUpdate free => simp [blocked] at free
  | _ => simp [isAtWork, isOver, isWaiting] at idle

theorem Steps.scan?_eq {call : ScanCall} (scans : next.scan? = some call) : point.scan? = some call := by
  cases steps with
  | rest => exact scans
  | enter => exact scans
  | scan => exact scans
  | _ => simp [CallPoint.scan?] at scans

end Steps

end CallPoint

namespace Indexer

/-- What holds at a point of a scan still holds after other scans were called for: either the scan is
stale from now on, or it does not matter. -/
theorem HoldsAt.cancel {tree : FileTree} {call : ScanCall} {point : ScanPoint} {indexer : Indexer}
    (older : call.generation ≤ indexer.generation) (holds : indexer.HoldsAt tree call point) :
    indexer.cancel.HoldsAt tree call point := by
  cases point with
  | committing left taken progress =>
      intro fresh
      simp only [isStale, Indexer.cancel, bne_eq_false_iff_eq] at fresh
      omega
  | sweeping progress =>
      exact ⟨⟨holds.history, holds.remembers⟩, holds.collected, holds.read, holds.accounts⟩
  | swept progress => exact ⟨holds.1.of_index_eq rfl rfl rfl, holds.2⟩
  | returned report =>
      intro complete
      have completed := holds complete
      exact ⟨completed.toUpToDate.of_index_eq rfl rfl rfl, completed.ready, completed.indexed,
        completed.counted, completed.failed, completed.errors⟩
  | _ => exact holds

end Indexer

namespace Concurrent

/-- The indexer keeps to its workspace, no two calls are at work, and no scan has a number above the
newest. -/
structure Regular (workspace : Workspace) (system : Concurrent) : Prop where
  history : system.indexer.index.HasHistory
  workspace : system.indexer.workspace = workspace
  numbered : ∀ point ∈ system.calls, ∀ call ∈ point.scan?, call.generation ≤ system.indexer.generation
  exclusive : ∀ one other : Nat, ∀ left ∈ system.calls[one]?, ∀ right ∈ system.calls[other]?,
    left.isAtWork → right.isAtWork → one = other

theorem isBusy_of_getElem? {system : Concurrent} {place : Nat} {point : CallPoint}
    (there : system.calls[place]? = some point) (atWork : point.isAtWork) : system.isBusy = true :=
  List.any_eq_true.mpr ⟨point, List.mem_of_getElem? there, atWork⟩

theorem after_step {system : Concurrent} {place : Nat} {point : CallPoint}
    (there : system.calls[place]? = some point) (tree : FileTree) (pick : Nat) :
    ∃ next indexer, point.Steps tree system.isBusy system.indexer next indexer ∧
      system.after tree (.step place pick) = ⟨indexer, system.calls.set place next⟩ := by
  refine ⟨_, _, CallPoint.steps_advanceCall tree pick system.isBusy point system.indexer, ?_⟩
  simp only [after, there]

theorem after_step_of_none {system : Concurrent} {place : Nat} (missing : system.calls[place]? = none)
    (tree : FileTree) (pick : Nat) : system.after tree (.step place pick) = system := by
  simp only [after, missing]

/-- Everyone else is idle when a call comes out of a step at work. -/
theorem Regular.idle_of_steps {workspace : Workspace} {system : Concurrent}
    (regular : system.Regular workspace) {place other : Nat} {point next second : CallPoint}
    {tree : FileTree} {indexer : Indexer} (there : system.calls[place]? = some point)
    (steps : point.Steps tree system.isBusy system.indexer next indexer) (apart : other ≠ place)
    (otherThere : system.calls[other]? = some second) (atWork : next.isAtWork) :
    second.isAtWork = false := by
  by_contra working
  rw [Bool.not_eq_false] at working
  cases idle : point.isAtWork with
  | true => exact apart (regular.exclusive other place second otherThere point there working idle)
  | false =>
      obtain ⟨rfl, -⟩ := steps.eq_of_idle idle (isBusy_of_getElem? otherThere working)
      simp [idle] at atWork

section Regular

variable {workspace : Workspace} {system : Concurrent} (regular : system.Regular workspace)
include regular

theorem Regular.cancel : Regular workspace ⟨system.indexer.cancel, system.calls⟩ where
  history := regular.history
  workspace := regular.workspace
  numbered point member call scans := (regular.numbered point member call scans).trans (Nat.le_succ _)
  exclusive := regular.exclusive

/-- One more call waits. -/
theorem Regular.append {last : CallPoint} (idle : last.isAtWork = false)
    (own : ∀ call ∈ last.scan?, call.generation ≤ system.indexer.generation) :
    Regular workspace ⟨system.indexer, system.calls ++ [last]⟩ := by
  refine ⟨regular.history, regular.workspace, ?_, ?_⟩
  · intro point member call scans
    rcases List.mem_append.mp member with old | new
    · exact regular.numbered point old call scans
    · rw [List.mem_singleton.mp new] at scans
      exact own call scans
  · intro one other left leftThere right rightThere leftWorks rightWorks
    have old {place : Nat} {point : CallPoint} (works : point.isAtWork)
        (there : (system.calls ++ [last])[place]? = some point) : system.calls[place]? = some point := by
      rcases getElem?_concat_cases there with before | ⟨-, rfl⟩
      · exact before
      · simp [idle] at works
    exact regular.exclusive one other left (old leftWorks leftThere) right (old rightWorks rightThere)
      leftWorks rightWorks

/-- One call makes a step. -/
theorem Regular.set {place : Nat} {point next : CallPoint} {tree : FileTree} {indexer : Indexer}
    (there : system.calls[place]? = some point)
    (steps : point.Steps tree system.isBusy system.indexer next indexer) :
    Regular workspace ⟨indexer, system.calls.set place next⟩ := by
  obtain ⟨sameWorkspace, sameGeneration⟩ := steps.frame
  refine ⟨steps.hasHistory regular.history, sameWorkspace.trans regular.workspace, ?_, ?_⟩
  · intro other member call scans
    simp only [sameGeneration]
    rcases List.mem_or_eq_of_mem_set member with old | rfl
    · exact regular.numbered other old call scans
    · exact regular.numbered point (List.mem_of_getElem? there) call (steps.scan?_eq scans)
  · intro one other left leftThere right rightThere leftWorks rightWorks
    have own {point : CallPoint} (itself : (system.calls.set place next)[place]? = some point) :
        point = next := by
      rw [List.getElem?_set_self (List.getElem?_eq_some_iff.mp there).1] at itself
      exact (Option.some.inj itself).symm
    have rest {other : Nat} {point : CallPoint} (apart : other ≠ place)
        (there : (system.calls.set place next)[other]? = some point) :
        system.calls[other]? = some point := by
      rwa [List.getElem?_set_ne (Ne.symm apart)] at there
    by_cases leftSteps : one = place
    · subst leftSteps
      by_contra apart
      have works := own leftThere ▸ leftWorks
      have idle := regular.idle_of_steps there steps (Ne.symm apart) (rest (Ne.symm apart) rightThere) works
      simp [idle] at rightWorks
    · by_cases rightSteps : other = place
      · subst rightSteps
        have works := own rightThere ▸ rightWorks
        have idle := regular.idle_of_steps there steps leftSteps (rest leftSteps leftThere) works
        simp [idle] at leftWorks
      · exact regular.exclusive one other left (rest leftSteps leftThere) right
          (rest rightSteps rightThere) leftWorks rightWorks

theorem Regular.after (tree : FileTree) (event : CallEvent) :
    (system.after tree event).Regular workspace := by
  cases event with
  | callScan afresh =>
      apply regular.cancel.append rfl
      rintro call ⟨⟩
      exact le_rfl
  | callUpdate path =>
      apply regular.append rfl
      simp [CallPoint.scan?]
  | cancel => exact regular.cancel
  | step place pick =>
      cases there : system.calls[place]? with
      | none => rwa [after_step_of_none there]
      | some point =>
          obtain ⟨next, indexer, steps, same⟩ := after_step there tree pick
          rw [same]
          exact regular.set there steps

/-- What holds at the point of a scan holds again after any event. -/
theorem Regular.holdsAt_after {tree : FileTree} (wellFormed : tree.WellFormed) {place : Nat}
    (holds : ∀ call point, system.calls[place]? = some (.scanning call point) →
      system.indexer.HoldsAt tree call point) (event : CallEvent) {call : ScanCall} {point : ScanPoint}
    (there : (system.after tree event).calls[place]? = some (.scanning call point)) :
    (system.after tree event).indexer.HoldsAt tree call point := by
  have old {last : CallPoint} (apart : last ≠ .scanning call point)
      (there : (system.calls ++ [last])[place]? = some (.scanning call point)) :
      system.calls[place]? = some (.scanning call point) :=
    (getElem?_concat_cases there).resolve_right fun new => apart new.2.symm
  have older (before : system.calls[place]? = some (.scanning call point)) :
      call.generation ≤ system.indexer.generation :=
    regular.numbered _ (List.mem_of_getElem? before) call rfl
  cases event with
  | callScan afresh =>
      have before := old (by simp) there
      exact (holds call point before).cancel (older before)
  | callUpdate path => exact holds call point (old (by simp) there)
  | cancel => exact (holds call point there).cancel (older there)
  | step moved pick =>
      cases movedThere : system.calls[moved]? with
      | none =>
          rw [after_step_of_none movedThere] at there ⊢
          exact holds call point there
      | some before =>
          obtain ⟨next, indexer, steps, same⟩ := after_step movedThere tree pick
          rw [same] at there ⊢
          by_cases itself : place = moved
          · subst itself
            rw [List.getElem?_set_self (List.getElem?_eq_some_iff.mp movedThere).1] at there
            obtain rfl := Option.some.inj there
            cases steps with
            | rest idle => simp [CallPoint.isAtWork, CallPoint.isOver, CallPoint.isWaiting] at idle
            | enter => exact fun _ => regular.history
            | scan step => exact step.holdsAt wellFormed (holds _ _ movedThere)
          · rw [List.getElem?_set_ne (Ne.symm itself)] at there
            have idle : before.isAtWork = false := by
              by_contra working
              rw [Bool.not_eq_false] at working
              exact itself (regular.exclusive place moved _ there _ movedThere rfl working)
            obtain ⟨-, rfl⟩ := steps.eq_of_idle idle (isBusy_of_getElem? there rfl)
            exact holds call point there

end Regular

theorem Regular.run {workspace : Workspace} {system : Concurrent} (regular : system.Regular workspace)
    (tree : FileTree) (events : List CallEvent) : (system.run tree events).Regular workspace := by
  induction events generalizing system with
  | nil => exact regular
  | cons event events ih => exact ih (regular.after tree event)

theorem Regular.holdsAt_run {workspace : Workspace} {system : Concurrent}
    (regular : system.Regular workspace) {tree : FileTree} (wellFormed : tree.WellFormed) {place : Nat}
    (holds : ∀ call point, system.calls[place]? = some (.scanning call point) →
      system.indexer.HoldsAt tree call point) (events : List CallEvent) :
    ∀ call point, (system.run tree events).calls[place]? = some (.scanning call point) →
      (system.run tree events).indexer.HoldsAt tree call point := by
  induction events generalizing system with
  | nil => exact holds
  | cons event events ih =>
      apply ih (regular.after tree event)
      intro call point there
      exact regular.holdsAt_after wellFormed holds event there

end Concurrent

end AutoImport
