import AutoImport.Proofs.Indexer.FullScan

/-!
# Superseded scans

Full scans take their numbers when they are called for and do their work one after the other, in any
order. The newest one is never stale, so it completes; when it is over, an older one that has not done
its work finds that it is stale before it touches anything.
-/

namespace AutoImport

/-- Whether an event is that a full scan is called for, or a step of a call. -/
def CallEvent.isOfScans : CallEvent → Bool
  | .callScan _ => true
  | .step .. => true
  | _ => false

namespace CallPoint

/-- A point of the given full scan. -/
def IsScan (call : ScanCall) : CallPoint → Prop
  | .scanWaiting own => own = call
  | .scanning own point => own = call ∧ ∀ report, point ≠ .returned report
  | .scanReturned _ => True
  | _ => False

/-- A full scan that has not found yet that it is stale, or is over. -/
def Outdated : CallPoint → Prop
  | .scanWaiting _ => True
  | .scanning _ .entered => True
  | .scanning _ .cleared => True
  | .scanReturned _ => True
  | _ => False

theorem IsScan.eq_of_scan? {call own : ScanCall} {point : CallPoint} (scan : point.IsScan call)
    (same : point.scan? = some own) : own = call := by
  cases point with
  | scanWaiting other =>
      obtain rfl := Option.some.inj same
      exact scan
  | scanning other point =>
      obtain rfl := Option.some.inj same
      exact scan.1
  | _ => simp [scan?] at same

theorem IsScan.outdated_of_idle {call : ScanCall} {point : CallPoint} (scan : point.IsScan call)
    (idle : point.isAtWork = false) : point.Outdated := by
  cases point with
  | scanWaiting own => trivial
  | scanReturned report => trivial
  | scanning own point => simp [isAtWork, isOver, isWaiting] at idle
  | _ => exact scan.elim

section Steps

variable {tree : FileTree} {busy : Bool} {point next : CallPoint} {indexer after : Indexer}
  (steps : Steps tree busy point indexer next after)
include steps

theorem Steps.isScan {call : ScanCall} (scan : point.IsScan call) : next.IsScan call := by
  cases steps with
  | rest => exact scan
  | enter => exact ⟨scan, by simp⟩
  | scan step unfinished => exact ⟨scan.1, unfinished⟩
  | endScan => trivial
  | _ => exact scan.elim

/-- A scan that has become stale in time leaves the indexer as it is. -/
theorem Steps.eq_of_outdated (outdated : point.Outdated)
    (stale : ∀ call ∈ point.scan?, indexer.isStale call.generation = true) :
    next.Outdated ∧ after = indexer := by
  cases steps with
  | rest => exact ⟨outdated, rfl⟩
  | enter => exact ⟨trivial, rfl⟩
  | scan step unfinished =>
      have itself := stale _ rfl
      cases step with
      | stay => exact ⟨outdated, rfl⟩
      | supersede => exact absurd rfl (unfinished _)
      | keepIndex => exact ⟨trivial, rfl⟩
      | beginClearing fresh => simp [itself] at fresh
      | begin fresh => simp [itself] at fresh
      | _ => exact outdated.elim
  | endScan step =>
      cases step with
      | supersede => exact ⟨trivial, rfl⟩
      | _ => exact outdated.elim
  | _ => exact outdated.elim

end Steps

end CallPoint

namespace Concurrent

theorem generation_after_step (tree : FileTree) (system : Concurrent) (place pick : Nat) :
    (system.after tree (.step place pick)).indexer.generation = system.indexer.generation := by
  cases there : system.calls[place]? with
  | none => rw [after_step_of_none there]
  | some point =>
      obtain ⟨next, indexer, steps, same⟩ := after_step there tree pick
      rw [same]
      exact steps.frame.2

/-- The full scans that events call for, with their numbers. -/
def scansCalled (newest : Nat) : List CallEvent → List ScanCall
  | [] => []
  | .callScan afresh :: events => ⟨afresh, newest + 1⟩ :: scansCalled (newest + 1) events
  | _ :: events => scansCalled newest events

/-! ## Scans that came too late -/

/-- The call at a place is a full scan that is stale and has not touched anything. -/
def LeftBehind (place : Nat) (system : Concurrent) : Prop :=
  ∃ point, system.calls[place]? = some point ∧ point.Outdated ∧
    ∀ call ∈ point.scan?, call.generation < system.indexer.generation

theorem isStale_of_lt {indexer : Indexer} {call : ScanCall}
    (older : call.generation < indexer.generation) : indexer.isStale call.generation = true := by
  simp only [Indexer.isStale, bne_iff_ne, ne_eq]
  omega

theorem LeftBehind.after {place : Nat} {system : Concurrent} (behind : system.LeftBehind place)
    (tree : FileTree) (event : CallEvent) : (system.after tree event).LeftBehind place := by
  obtain ⟨point, there, outdated, older⟩ := behind
  have inRange := (List.getElem?_eq_some_iff.mp there).1
  cases event with
  | callScan afresh =>
      refine ⟨point, (List.getElem?_append_left inRange).trans there, outdated, ?_⟩
      exact fun call scans => (older call scans).trans (Nat.lt_succ_self _)
  | callUpdate path =>
      exact ⟨point, (List.getElem?_append_left inRange).trans there, outdated, older⟩
  | cancel =>
      exact ⟨point, there, outdated, fun call scans => (older call scans).trans (Nat.lt_succ_self _)⟩
  | step moved pick =>
      cases movedThere : system.calls[moved]? with
      | none =>
          rw [after_step_of_none movedThere]
          exact ⟨point, there, outdated, older⟩
      | some before =>
          obtain ⟨next, indexer, steps, same⟩ := after_step movedThere tree pick
          rw [same]
          simp only [LeftBehind, steps.frame.2]
          by_cases itself : moved = place
          · subst itself
            obtain rfl := Option.some.inj (there.symm.trans movedThere)
            obtain ⟨stillOutdated, -⟩ :=
              steps.eq_of_outdated outdated fun call scans => isStale_of_lt (older call scans)
            refine ⟨next, List.getElem?_set_self inRange, stillOutdated, ?_⟩
            exact fun call scans => older call (steps.scan?_eq scans)
          · exact ⟨point, (List.getElem?_set_ne itself).trans there, outdated, older⟩

/-- A scan that came too late never touches anything. -/
theorem LeftBehind.indexer_eq {place : Nat} {system : Concurrent} (behind : system.LeftBehind place)
    (tree : FileTree) (more : List CallEvent) (pick : Nat) :
    ((system.run tree more).after tree (.step place pick)).indexer = (system.run tree more).indexer := by
  have still : (system.run tree more).LeftBehind place := by
    induction more generalizing system with
    | nil => exact behind
    | cons event more ih => exact ih (behind.after tree event)
  obtain ⟨point, there, outdated, older⟩ := still
  obtain ⟨next, indexer, steps, same⟩ := after_step there tree pick
  rw [same]
  exact (steps.eq_of_outdated outdated fun call scans => isStale_of_lt (older call scans)).2

/-! ## Scans in any order -/

/-- Full scans on one indexer, each at its place. When the newest is over it has completed, and no
older one will touch anything. -/
structure Contest (tree : FileTree) (workspace : Workspace) (made : List ScanCall)
    (system : Concurrent) : Prop extends Regular workspace system where
  length_eq : made.length = system.calls.length
  /-- The scan at the last place has the newest number, and the others count down from it. -/
  ranked : ∀ (place : Nat) (call : ScanCall), made[place]? = some call →
    call.generation + made.length = system.indexer.generation + place + 1
  scans : ∀ (place : Nat) (call : ScanCall) (point : CallPoint), made[place]? = some call →
    system.calls[place]? = some point → point.IsScan call
  holds : ∀ (place : Nat) (call : ScanCall) (point : ScanPoint),
    system.calls[place]? = some (.scanning call point) → system.indexer.HoldsAt tree call point
  settled : ∀ report, system.calls[system.calls.length - 1]? = some (.scanReturned report) →
    report.cancelled = false ∧ system.indexer.Completed tree report ∧
      ∀ place, place + 1 < system.calls.length → system.LeftBehind place

section Contest

variable {tree : FileTree} {workspace : Workspace} {made : List ScanCall} {system : Concurrent}
  (contest : Contest tree workspace made system)
include contest

theorem Contest.exists_made {place : Nat} {point : CallPoint}
    (there : system.calls[place]? = some point) : ∃ call, made[place]? = some call := by
  have inRange := (List.getElem?_eq_some_iff.mp there).1
  rw [← contest.length_eq] at inRange
  exact ⟨_, List.getElem?_eq_getElem inRange⟩

/-- An older scan that is not at work when the newest is over has been left behind. -/
theorem Contest.leftBehind {place : Nat} {point : CallPoint}
    (there : system.calls[place]? = some point) (older : place + 1 < system.calls.length)
    (outdated : point.Outdated) : system.LeftBehind place := by
  refine ⟨point, there, outdated, fun own scans => ?_⟩
  obtain ⟨call, known⟩ := contest.exists_made there
  have rank := contest.ranked place call known
  have length_eq := contest.length_eq
  rw [(contest.scans place call point known there).eq_of_scan? scans]
  omega

/-- One more full scan is called for. -/
theorem Contest.call (wellFormed : tree.WellFormed) (afresh : Bool) :
    Contest tree workspace (made ++ [⟨afresh, system.indexer.generation + 1⟩])
      (system.after tree (.callScan afresh)) := by
  have length_eq := contest.length_eq
  have calls : (system.after tree (.callScan afresh)).calls =
      system.calls ++ [.scanWaiting ⟨afresh, system.indexer.generation + 1⟩] := rfl
  have generation : (system.after tree (.callScan afresh)).indexer.generation =
      system.indexer.generation + 1 := rfl
  refine ⟨contest.toRegular.after tree _, ?_, ?_, ?_, ?_, ?_⟩
  · simp [calls, length_eq]
  · intro place call known
    rw [List.length_append, List.length_singleton, generation]
    rcases getElem?_concat_cases known with old | ⟨rfl, rfl⟩
    · have rank := contest.ranked place call old
      omega
    · simp only
      omega
  · intro place call point known there
    rw [calls] at there
    rcases getElem?_concat_cases known with old | ⟨rfl, rfl⟩
    · have inRange := (List.getElem?_eq_some_iff.mp old).1
      rw [List.getElem?_append_left (length_eq ▸ inRange)] at there
      exact contest.scans place call point old there
    · rw [length_eq, List.getElem?_concat_length] at there
      obtain rfl := Option.some.inj there
      rfl
  · intro place call point there
    exact contest.holdsAt_after wellFormed (contest.holds place) (.callScan afresh) there
  · intro report last
    simp [calls] at last

/-- When the newest scan is over, no step changes the indexer. -/
theorem Contest.step_of_over {report : ScanReport}
    (ended : system.calls[system.calls.length - 1]? = some (.scanReturned report)) (place pick : Nat) :
    (system.after tree (.step place pick)).indexer = system.indexer ∧
      (system.after tree (.step place pick)).calls[system.calls.length - 1]? =
        some (.scanReturned report) := by
  cases there : system.calls[place]? with
  | none =>
      rw [after_step_of_none there]
      exact ⟨rfl, ended⟩
  | some point =>
      have inRange := (List.getElem?_eq_some_iff.mp there).1
      obtain ⟨next, indexer, steps, same⟩ := after_step there tree pick
      by_cases itself : place = system.calls.length - 1
      · subst itself
        obtain rfl := Option.some.inj (there.symm.trans ended)
        rw [same]
        cases steps with
        | rest => exact ⟨rfl, List.getElem?_set_self inRange⟩
      · obtain ⟨-, -, behind⟩ := contest.settled report ended
        have untouched := (behind place (by omega)).indexer_eq tree [] pick
        refine ⟨untouched, ?_⟩
        rw [same]
        exact (List.getElem?_set_ne itself).trans ended

/-- The newest scan comes to its end. -/
theorem Contest.settle (wellFormed : tree.WellFormed) {call : ScanCall} {point : ScanPoint}
    {report : ScanReport} {indexer : Indexer}
    (there : system.calls[system.calls.length - 1]? = some (.scanning call point))
    (step : Indexer.Advances tree call point system.indexer (.returned report) indexer) :
    report.cancelled = false ∧ indexer.Completed tree report ∧
      ∀ place, place + 1 < system.calls.length → system.LeftBehind place := by
  obtain ⟨newest, known⟩ := contest.exists_made there
  obtain ⟨rfl, unfinished⟩ := contest.scans _ _ _ known there
  have inRange := (List.getElem?_eq_some_iff.mp there).1
  have fresh : system.indexer.isStale call.generation = false := by
    have rank := contest.ranked _ call known
    have length_eq := contest.length_eq
    simp only [Indexer.isStale, bne_eq_false_iff_eq]
    omega
  have uncancelled : point.Uncancelled := by
    cases point with
    | returned other => exact absurd rfl (unfinished other)
    | _ => trivial
  have complete : report.cancelled = false := step.uncancelled fresh uncancelled
  refine ⟨complete, step.holdsAt wellFormed (contest.holds _ _ _ there) complete, ?_⟩
  intro place older
  have otherThere := List.getElem?_eq_getElem (Nat.lt_of_succ_lt older)
  obtain ⟨otherCall, otherKnown⟩ := contest.exists_made otherThere
  have scan := contest.scans _ _ _ otherKnown otherThere
  apply contest.leftBehind otherThere older
  apply scan.outdated_of_idle
  by_contra working
  rw [Bool.not_eq_false] at working
  have same := contest.exclusive _ _ _ otherThere _ there working rfl
  omega

/-- What a step leaves of the newest scan when this is over. -/
theorem Contest.settled_step (wellFormed : tree.WellFormed) (place pick : Nat) {report : ScanReport}
    (last : (system.after tree (.step place pick)).calls[system.calls.length - 1]? =
      some (.scanReturned report)) :
    report.cancelled = false ∧
      (system.after tree (.step place pick)).indexer.Completed tree report ∧
      ∀ other, other + 1 < system.calls.length →
        (system.after tree (.step place pick)).LeftBehind other := by
  by_cases ended : ∃ earlier, system.calls[system.calls.length - 1]? = some (.scanReturned earlier)
  · obtain ⟨earlier, ended⟩ := ended
    obtain ⟨untouched, stays⟩ := contest.step_of_over ended place pick
    obtain rfl := CallPoint.scanReturned.inj (Option.some.inj (stays.symm.trans last))
    obtain ⟨complete, completed, behind⟩ := contest.settled earlier ended
    rw [untouched]
    exact ⟨complete, completed, fun other older => (behind other older).after tree _⟩
  · -- Only the newest scan itself can have come to its end by this step.
    cases there : system.calls[place]? with
    | none =>
        rw [after_step_of_none there] at last
        exact absurd ⟨report, last⟩ ended
    | some point =>
        obtain ⟨next, indexer, steps, same⟩ := after_step there tree pick
        have inRange := (List.getElem?_eq_some_iff.mp there).1
        rw [same] at last
        obtain rfl : place = system.calls.length - 1 := by
          by_contra apart
          rw [List.getElem?_set_ne apart] at last
          exact ended ⟨report, last⟩
        rw [List.getElem?_set_self inRange] at last
        obtain rfl := Option.some.inj last
        cases steps with
        | rest => exact absurd ⟨report, there⟩ ended
        | endScan step =>
            obtain ⟨complete, completed, behind⟩ := contest.settle wellFormed there step
            refine ⟨complete, ?_, fun other older => (behind other older).after tree _⟩
            rwa [same]

/-- A scan makes a step. -/
theorem Contest.step (wellFormed : tree.WellFormed) (place pick : Nat) :
    Contest tree workspace made (system.after tree (.step place pick)) := by
  cases there : system.calls[place]? with
  | none => rwa [after_step_of_none there]
  | some point =>
      obtain ⟨next, indexer, steps, same⟩ := after_step there tree pick
      have inRange := (List.getElem?_eq_some_iff.mp there).1
      have length_eq : (system.after tree (.step place pick)).calls.length = system.calls.length := by
        rw [same, List.length_set]
      refine ⟨contest.toRegular.after tree _, contest.length_eq.trans length_eq.symm, ?_, ?_, ?_, ?_⟩
      · intro other call known
        rw [generation_after_step]
        exact contest.ranked other call known
      · intro other call otherPoint known otherThere
        rw [same] at otherThere
        by_cases itself : place = other
        · subst itself
          rw [List.getElem?_set_self inRange] at otherThere
          obtain rfl := Option.some.inj otherThere
          exact steps.isScan (contest.scans _ _ _ known there)
        · rw [List.getElem?_set_ne itself] at otherThere
          exact contest.scans _ _ _ known otherThere
      · intro other call otherPoint otherThere
        exact contest.holdsAt_after wellFormed (contest.holds other) (.step place pick) otherThere
      · intro report last
        rw [length_eq] at last ⊢
        exact contest.settled_step wellFormed place pick last

/-- The scan at the last place has the highest number. -/
theorem Contest.lt_newest {newest call : ScanCall} (known : made[made.length - 1]? = some newest)
    (member : call ∈ made) (apart : call ≠ newest) : call.generation < newest.generation := by
  obtain ⟨place, callKnown⟩ := List.mem_iff_getElem?.mp member
  have inRange := (List.getElem?_eq_some_iff.mp callKnown).1
  have elsewhere : place ≠ made.length - 1 := by
    rintro rfl
    exact apart (Option.some.inj (callKnown.symm.trans known))
  have rank := contest.ranked _ _ known
  have callRank := contest.ranked _ _ callKnown
  omega

theorem Contest.exists_newest (called : made ≠ []) (ended : ∀ point ∈ system.calls, point.isOver) :
    ∃ newest report, made[made.length - 1]? = some newest ∧
      system.calls[made.length - 1]? = some (.scanReturned report) := by
  have positive := List.length_pos_iff.mpr called
  have last : made.length - 1 < system.calls.length := by
    rw [← contest.length_eq]
    omega
  obtain ⟨point, there⟩ : ∃ point, system.calls[made.length - 1]? = some point :=
    ⟨_, List.getElem?_eq_getElem last⟩
  obtain ⟨newest, known⟩ := contest.exists_made there
  have scan := contest.scans _ _ _ known there
  have isOver := ended point (List.mem_of_getElem? there)
  cases point with
  | scanReturned report => exact ⟨newest, report, known, there⟩
  | updateReturned outcome => exact scan.elim
  | _ => simp [CallPoint.isOver] at isOver

end Contest

theorem Contest.run {tree : FileTree} (wellFormed : tree.WellFormed) {workspace : Workspace}
    {events : List CallEvent} (ofScans : ∀ event ∈ events, event.isOfScans) {made : List ScanCall}
    {system : Concurrent} (contest : Contest tree workspace made system) :
    Contest tree workspace (made ++ scansCalled system.indexer.generation events)
      (system.run tree events) := by
  induction events generalizing made system with
  | nil =>
      rw [scansCalled, List.append_nil]
      exact contest
  | cons event events ih =>
      have rest := fun later member => ofScans later (List.mem_cons_of_mem _ member)
      cases event with
      | callScan afresh =>
          have onward := ih rest (contest.call wellFormed afresh)
          rw [List.append_assoc] at onward
          exact onward
      | step place pick =>
          have onward := ih rest (contest.step wellFormed place pick)
          rw [generation_after_step] at onward
          exact onward
      | _ => exact absurd (ofScans _ List.mem_cons_self) Bool.false_ne_true

theorem idle_contest (tree : FileTree) {indexer : Indexer} (history : indexer.index.HasHistory) :
    Contest tree indexer.workspace [] (idle indexer) :=
  ⟨idle_regular history rfl, rfl, by simp, by simp, by simp [idle], by simp [idle]⟩

/-- Full scans that are called for on one indexer end as if the newest had been the only one. When all
are over, this one has completed and the others have left no trace; and a scan that still waits when a
newer one was called for, be it that this one is over or not, will never touch anything. -/
theorem newest_scan_prevails {tree : FileTree} (wellFormed : tree.WellFormed) {indexer : Indexer}
    (history : indexer.index.HasHistory) {events : List CallEvent}
    (ofScans : ∀ event ∈ events, event.isOfScans) :
    let made := scansCalled indexer.generation events
    let system := (idle indexer).run tree events
    (made.length = system.calls.length ∧ ∀ (place : Nat) (call : ScanCall) (point : CallPoint),
      made[place]? = some call → system.calls[place]? = some point → point.IsScan call) ∧
    (made ≠ [] → (∀ point ∈ system.calls, point.isOver) →
      ∃ (place : Nat) (newest : ScanCall) (report : ScanReport), made[place]? = some newest ∧
        (∀ call ∈ made, call ≠ newest → call.generation < newest.generation) ∧
        system.calls[place]? = some (.scanReturned report) ∧ report.cancelled = false ∧
        system.indexer.status = .ready ∧
        ∀ (empty alone : Indexer) (aloneReport : ScanReport), empty.index = .empty →
          empty.workspace = indexer.workspace →
          Indexer.Scans tree newest.afresh empty aloneReport alone →
          system.indexer.index.AnswersAs alone.index) ∧
    ∀ (place : Nat) (call newer : ScanCall), system.calls[place]? = some (.scanWaiting call) →
      newer ∈ made → call.generation < newer.generation → ∀ (more : List CallEvent) (pick : Nat),
        ((system.run tree more).after tree (.step place pick)).indexer =
          (system.run tree more).indexer := by
  have contest := (idle_contest tree history).run wellFormed ofScans
  rw [List.nil_append] at contest
  intro made system
  change Contest tree indexer.workspace made system at contest
  clear_value made system
  refine ⟨⟨contest.length_eq, contest.scans⟩, ?_, ?_⟩
  · intro called ended
    obtain ⟨newest, report, known, there⟩ := contest.exists_newest called ended
    obtain ⟨complete, completed, -⟩ := contest.settled report (contest.length_eq ▸ there)
    refine ⟨_, newest, report, known, ?_, there, complete, completed.ready, ?_⟩
    · intro call member apart
      exact contest.lt_newest known member apart
    · intro empty alone aloneReport emptyIndex sameWorkspace scans
      have emptyHistory : empty.index.HasHistory := emptyIndex ▸ SymbolIndex.empty_hasHistory
      obtain ⟨-, aloneCompleted, aloneWorkspace⟩ := scans.completed wellFormed fun _ => emptyHistory
      apply completed.toUpToDate.answersAs aloneCompleted.toUpToDate
      rw [aloneWorkspace, sameWorkspace]
      exact contest.workspace
  · intro place call newer waits member older
    obtain ⟨other, known⟩ := List.mem_iff_getElem?.mp member
    have rank := contest.ranked other newer known
    have inRange := (List.getElem?_eq_some_iff.mp known).1
    apply LeftBehind.indexer_eq
    refine ⟨_, waits, trivial, ?_⟩
    rintro own ⟨⟩
    omega

/-- A scan that is over stays so. -/
theorem returned_run {system : Concurrent} {place : Nat} {report : ScanReport}
    (ended : system.calls[place]? = some (.scanReturned report)) (tree : FileTree)
    (events : List CallEvent) : (system.run tree events).calls[place]? = some (.scanReturned report) := by
  have inRange := (List.getElem?_eq_some_iff.mp ended).1
  induction events generalizing system with
  | nil => exact ended
  | cons event events ih =>
      have still : (system.after tree event).calls[place]? = some (.scanReturned report) := by
        cases event with
        | callScan afresh => exact (List.getElem?_append_left inRange).trans ended
        | callUpdate path => exact (List.getElem?_append_left inRange).trans ended
        | cancel => exact ended
        | step moved pick =>
            cases there : system.calls[moved]? with
            | none => rwa [after_step_of_none there]
            | some point =>
                obtain ⟨next, indexer, steps, same⟩ := after_step there tree pick
                rw [same]
                by_cases itself : moved = place
                · subst itself
                  obtain rfl := Option.some.inj (there.symm.trans ended)
                  cases steps with
                  | rest => exact List.getElem?_set_self inRange
                · exact (List.getElem?_set_ne itself).trans ended
      exact ih still (List.getElem?_eq_some_iff.mp still).1

/-- A rebuild begins, another scan is called for, and so the rebuild is given up before the index is
emptied. -/
def rebuildGivenUp : List CallEvent :=
  [.callScan true, .step 0 0, .callScan false, .step 0 0, .step 1 0]

theorem newest_scan_prevails_of_two :
    ∃ steps report,
      let system := (idle (.new looseWorkspace)).run looseSources
        (rebuildGivenUp ++ List.replicate steps (.step 1 0))
      system.calls = [.scanReturned .superseded, .scanReturned report] ∧ report.cancelled = false ∧
        system.indexer.status = .ready ∧
        system.indexer.index.AnswersAs ((Indexer.new looseWorkspace).scan looseSources false).2.index := by
  let begun := (idle (.new looseWorkspace)).run looseSources rebuildGivenUp
  have first : begun.calls[0]? = some (.scanReturned .superseded) := rfl
  have second : begun.calls[1]? = some (.scanning ⟨false, 2⟩ .entered) := rfl
  obtain ⟨steps, last, report, -, returned, -⟩ :=
    scanning_ends looseSources second rfl (by simp) le_rfl
  let events := rebuildGivenUp ++ List.replicate (steps + 1) (.step 1 0)
  have runs : (idle (.new looseWorkspace)).run looseSources events =
      (begun.run looseSources (List.replicate steps (.step 1 0))).after looseSources (.step 1 0) := by
    simp only [events, begun, run, List.replicate_succ', List.foldl_append, List.foldl_cons,
      List.foldl_nil]
  have begins : ∀ event ∈ rebuildGivenUp, event.isOfScans := by decide
  have ofScans : ∀ event ∈ events, event.isOfScans := by
    intro event member
    rcases List.mem_append.mp member with early | late
    · exact begins event early
    · rw [List.eq_of_mem_replicate late]
      rfl
  have noMore (newest count : Nat) : scansCalled newest (List.replicate count (.step 1 0)) = [] := by
    induction count with
    | zero => rfl
    | succ count ih => exact ih
  have made : scansCalled (Indexer.new looseWorkspace).generation events = [⟨true, 1⟩, ⟨false, 2⟩] := by
    simp [events, rebuildGivenUp, scansCalled, noMore, Indexer.new]
  have history : (Indexer.new looseWorkspace).index.HasHistory := SymbolIndex.empty_hasHistory
  have wellFormed : looseSources.WellFormed := by decide
  obtain ⟨⟨length_eq, -⟩, prevails, -⟩ := newest_scan_prevails wellFormed history ofScans
  rw [made] at length_eq prevails
  obtain ⟨one, other, calls⟩ := List.length_eq_two.mp length_eq.symm
  have oneOver : one = .scanReturned .superseded := by
    have ended := returned_run first looseSources (List.replicate steps (.step 1 0) ++ [.step 1 0])
    rw [run, List.foldl_append] at ended
    change ((begun.run looseSources (List.replicate steps (.step 1 0))).after looseSources
      (.step 1 0)).calls[0]? = _ at ended
    rw [← runs, calls] at ended
    exact Option.some.inj ended
  have otherOver : other = .scanReturned report := by
    rw [← runs, calls] at returned
    exact Option.some.inj returned
  subst oneOver otherOver
  obtain ⟨place, newest, itsReport, known, highest, there, complete, ready, answers⟩ :=
    prevails (by simp) (by rw [calls]; simp [CallPoint.isOver])
  obtain rfl : place = 1 := by
    rcases place with _ | _ | place
    · obtain rfl := Option.some.inj known
      simpa using highest ⟨false, 2⟩ (by simp) (by simp)
    · rfl
    · simp at known
  obtain rfl := Option.some.inj known
  rw [calls] at there
  obtain rfl := CallPoint.scanReturned.inj (Option.some.inj there)
  exact ⟨steps + 1, _, calls, complete, ready, answers (.new looseWorkspace) _ _ rfl rfl
    (Indexer.scan_scans looseSources false _)⟩

end Concurrent

end AutoImport
