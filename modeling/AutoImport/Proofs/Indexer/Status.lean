import AutoImport.Proofs.Indexer.Superseded

/-!
# The status between calls

An update puts the status aside and tells it again at its end, so between calls no status of an update is
left. Only full scans change it: they say that they are scanning, and at the end that the index is ready.
A scan that is given up in between tells nothing at its end. So the status stays as that scan left it
until another full scan completes.
-/

namespace AutoImport

namespace CallPoint

/-- The status that an update has put aside. -/
def aside? : CallPoint → Option IndexerStatus
  | .updating _ before => some before
  | .updated _ before => some before
  | _ => none

theorem aside?_of_idle {point : CallPoint} (idle : point.isAtWork = false) : point.aside? = none := by
  cases point with
  | updating path before => simp [isAtWork, isOver, isWaiting] at idle
  | updated outcome before => simp [isAtWork, isOver, isWaiting] at idle
  | _ => rfl

/-- A call that is no full scan, or one that cannot touch anything any more. -/
def Settled (newest : Nat) (point : CallPoint) : Prop :=
  point.scan? = none ∨ point.Outdated ∧ ∀ call ∈ point.scan?, call.generation < newest

theorem settled_of_idle {newest : Nat} {point : CallPoint} (idle : point.isAtWork = false)
    (older : ∀ call ∈ point.scan?, call.generation < newest) : point.Settled newest := by
  cases point with
  | scanWaiting call => exact .inr ⟨trivial, older⟩
  | scanning call point => simp [isAtWork, isOver, isWaiting] at idle
  | _ => exact .inl rfl

end CallPoint

namespace Indexer

theorem Advances.status {tree : FileTree} {call : ScanCall} {point next : ScanPoint}
    {indexer after : Indexer} (step : Advances tree call point indexer next after) :
    after.status = indexer.status ∨ after.status = .scanning ∨ after.status = .ready := by
  cases step with
  | announce => exact .inr (.inl rfl)
  | close => exact .inr (.inr rfl)
  | commit => exact .inl (commit_frame _ _ _).2.2
  | sweep => exact .inl (by rw [sweep_eq])
  | _ => exact .inl rfl

theorem Advances.ready_of_returned {tree : FileTree} {call : ScanCall} {point : ScanPoint}
    {report : ScanReport} {indexer after : Indexer}
    (step : Advances tree call point indexer (.returned report) after)
    (fresh : indexer.isStale call.generation = false)
    (unfinished : ∀ report, point ≠ .returned report) : after.status = .ready := by
  cases step with
  | stay => exact absurd rfl (unfinished _)
  | supersede stale => simp [fresh] at stale
  | close => rfl

theorem statusAfterUpdate_of_plain {status : IndexerStatus} (plain : ∀ path, status ≠ .updating path) :
    statusAfterUpdate status = status := by
  cases status with
  | updating path => exact absurd rfl (plain path)
  | _ => rfl

end Indexer

namespace Concurrent

/-! ## The status that updates come back to -/

/-- The status that the indexer shows once no update is at work. -/
structure Rests (status : IndexerStatus) (system : Concurrent) : Prop where
  plain : ∀ path, status ≠ .updating path
  aside : ∀ point ∈ system.calls, ∀ before ∈ point.aside?, before = status
  shown : (∀ point ∈ system.calls, point.aside? = none) → system.indexer.status = status

theorem idle_rests {indexer : Indexer} (plain : ∀ path, indexer.status ≠ .updating path) :
    (idle indexer).Rests indexer.status :=
  ⟨plain, by simp [idle], fun _ => rfl⟩

theorem Regular.aside?_of_ne {workspace : Workspace} {system : Concurrent}
    (regular : system.Regular workspace) {place other : Nat} {point second : CallPoint}
    (there : system.calls[place]? = some point) (atWork : point.isAtWork) (apart : other ≠ place)
    (otherThere : system.calls[other]? = some second) : second.aside? = none := by
  apply CallPoint.aside?_of_idle
  by_contra working
  rw [Bool.not_eq_false] at working
  exact apart (regular.exclusive _ _ _ otherThere _ there working atWork)

theorem aside?_of_free {system : Concurrent} (free : system.isBusy = false) :
    ∀ point ∈ system.calls, point.aside? = none := by
  intro point member
  apply CallPoint.aside?_of_idle
  by_contra working
  rw [Bool.not_eq_false] at working
  have busy : system.isBusy = true := List.any_eq_true.mpr ⟨point, member, working⟩
  simp [free] at busy

theorem mem_set_cases {calls : List CallPoint} {place : Nat} {next point : CallPoint}
    (member : point ∈ calls.set place next) :
    point = next ∨ ∃ other, other ≠ place ∧ calls[other]? = some point := by
  rcases List.mem_iff_getElem?.mp member with ⟨other, there⟩
  by_cases itself : place = other
  · subst itself
    have inRange := (List.getElem?_eq_some_iff.mp there).1
    rw [List.length_set] at inRange
    rw [List.getElem?_set_self inRange] at there
    exact .inl (Option.some.inj there).symm
  · rw [List.getElem?_set_ne itself] at there
    exact .inr ⟨other, Ne.symm itself, there⟩

/-- When nothing is put aside after a step, the status that is told then is the one that stays. -/
theorem rests_of_told {system : Concurrent} {place : Nat} {next : CallPoint} {indexer : Indexer}
    (plain : ∀ path, indexer.status ≠ .updating path) (own : next.aside? = none)
    (others : ∀ other point, other ≠ place → system.calls[other]? = some point → point.aside? = none) :
    Rests indexer.status ⟨indexer, system.calls.set place next⟩ := by
  refine ⟨plain, ?_, fun _ => rfl⟩
  intro point member before there
  rcases mem_set_cases member with rfl | ⟨other, apart, otherThere⟩
  · simp [own] at there
  · simp [others other point apart otherThere] at there

section Rests

variable {workspace : Workspace} {system : Concurrent} {status : IndexerStatus}
  (rests : system.Rests status)
include rests

theorem Rests.append {last : CallPoint} {indexer : Indexer}
    (same : indexer.status = system.indexer.status) (notAside : last.aside? = none) :
    Rests status ⟨indexer, system.calls ++ [last]⟩ := by
  refine ⟨rests.plain, ?_, ?_⟩
  · intro point member before there
    rcases List.mem_append.mp member with old | new
    · exact rests.aside point old before there
    · rw [List.mem_singleton.mp new, notAside] at there
      simp at there
  · intro all
    exact same.trans (rests.shown fun point member => all point (List.mem_append_left _ member))

theorem Rests.set_of_same {place : Nat} {point next : CallPoint} {indexer : Indexer}
    (there : system.calls[place]? = some point) (aside : next.aside? = point.aside?)
    (same : indexer.status = system.indexer.status) :
    Rests status ⟨indexer, system.calls.set place next⟩ := by
  have itself : next ∈ system.calls.set place next :=
    List.mem_set (List.getElem?_eq_some_iff.mp there).1 next
  refine ⟨rests.plain, ?_, ?_⟩
  · intro other member before otherAside
    rcases mem_set_cases member with rfl | ⟨second, -, otherThere⟩
    · rw [aside] at otherAside
      exact rests.aside point (List.mem_of_getElem? there) before otherAside
    · exact rests.aside other (List.mem_of_getElem? otherThere) before otherAside
  · intro all
    apply same.trans
    apply rests.shown
    intro other member
    rcases List.mem_iff_getElem?.mp member with ⟨second, otherThere⟩
    by_cases own : second = place
    · subst own
      rw [← Option.some.inj (there.symm.trans otherThere), ← aside]
      exact all next itself
    · apply all other
      rw [← List.getElem?_set_ne (Ne.symm own)] at otherThere
      exact List.mem_of_getElem? otherThere

theorem Rests.set_of_update (regular : system.Regular workspace) {place : Nat}
    {point next : CallPoint} {tree : FileTree} {indexer : Indexer}
    (there : system.calls[place]? = some point) (updates : point.scan? = none)
    (steps : point.Steps tree system.isBusy system.indexer next indexer) :
    Rests status ⟨indexer, system.calls.set place next⟩ := by
  cases steps with
  | rest => exact rests.set_of_same there rfl rfl
  | skip => exact rests.set_of_same there rfl rfl
  | update =>
      refine rests.set_of_same there rfl ?_
      rw [Indexer.updateFile_snd]
      split
      · exact (Indexer.commit_frame _ _ _).2.2
      · rfl
  | beginUpdate free =>
      -- Nothing is put aside yet, so the status shown is the one that updates come back to.
      have found := rests.shown (aside?_of_free free)
      refine ⟨rests.plain, ?_, ?_⟩
      · intro other member before otherAside
        rcases mem_set_cases member with rfl | ⟨second, -, otherThere⟩
        · exact (Option.some.inj otherAside).symm.trans found
        · exact rests.aside other (List.mem_of_getElem? otherThere) before otherAside
      · intro all
        have itself := all _ (List.mem_set (List.getElem?_eq_some_iff.mp there).1 _)
        simp [CallPoint.aside?] at itself
  | @endUpdate outcome before =>
      -- What was put aside is told again, and nothing else is put aside then.
      have found : before = status := rests.aside _ (List.mem_of_getElem? there) before rfl
      have told : (system.indexer.endUpdate before).status = status := by
        rw [found]
        exact Indexer.statusAfterUpdate_of_plain rests.plain
      have plain : ∀ path, (system.indexer.endUpdate before).status ≠ .updating path := by
        rw [told]
        exact rests.plain
      have later := rests_of_told plain (rfl : (CallPoint.updateReturned outcome).aside? = none)
        fun other point apart => regular.aside?_of_ne there rfl apart
      rwa [told] at later
  | _ => simp [CallPoint.scan?] at updates

/-- A full scan leaves the status alone, or tells one of its own. -/
theorem Rests.set_of_scan (regular : system.Regular workspace) {place : Nat}
    {point next : CallPoint} {tree : FileTree} {indexer : Indexer}
    (there : system.calls[place]? = some point) {call : ScanCall} (scans : point.scan? = some call)
    (steps : point.Steps tree system.isBusy system.indexer next indexer) :
    indexer.status = system.indexer.status ∧ Rests status ⟨indexer, system.calls.set place next⟩ ∨
      (indexer.status = .scanning ∨ indexer.status = .ready) ∧
        Rests indexer.status ⟨indexer, system.calls.set place next⟩ := by
  have advance {own : ScanCall} {before after : ScanPoint}
      (step : Indexer.Advances tree own before system.indexer after indexer)
      (itself : point = .scanning own before) (notAside : next.aside? = none) :
      indexer.status = system.indexer.status ∧ Rests status ⟨indexer, system.calls.set place next⟩ ∨
        (indexer.status = .scanning ∨ indexer.status = .ready) ∧
          Rests indexer.status ⟨indexer, system.calls.set place next⟩ := by
    subst itself
    rcases step.status with same | told
    · exact .inl ⟨same, rests.set_of_same there notAside same⟩
    · -- No update is at work beside a scan, so none will come back to an older status.
      refine .inr ⟨told, rests_of_told ?_ notAside ?_⟩
      · intro path
        rcases told with told | told <;> simp [told]
      · intro other second apart
        exact regular.aside?_of_ne there rfl apart
  cases steps with
  | rest => exact .inl ⟨rfl, rests.set_of_same there rfl rfl⟩
  | enter => exact .inl ⟨rfl, rests.set_of_same there rfl rfl⟩
  | scan step => exact advance step rfl rfl
  | endScan step => exact advance step rfl rfl
  | _ => simp [CallPoint.scan?] at scans

end Rests

/-- Whatever happens, the status that updates come back to is the old one, or one that a full scan told. -/
theorem Rests.after {workspace : Workspace} {system : Concurrent} {status : IndexerStatus}
    (rests : system.Rests status) (regular : system.Regular workspace) (tree : FileTree)
    (event : CallEvent) :
    ∃ later, (system.after tree event).Rests later ∧
      (later = status ∨ later = .scanning ∨ later = .ready) := by
  cases event with
  | callScan afresh => exact ⟨status, rests.append rfl rfl, .inl rfl⟩
  | callUpdate path => exact ⟨status, rests.append rfl rfl, .inl rfl⟩
  | cancel => exact ⟨status, ⟨rests.plain, rests.aside, rests.shown⟩, .inl rfl⟩
  | step place pick =>
      cases there : system.calls[place]? with
      | none =>
          rw [after_step_of_none there]
          exact ⟨status, rests, .inl rfl⟩
      | some point =>
          rcases after_step there tree pick with ⟨next, indexer, steps, same⟩
          rw [same]
          cases scans : point.scan? with
          | none => exact ⟨status, rests.set_of_update regular there scans steps, .inl rfl⟩
          | some call =>
              rcases rests.set_of_scan regular there scans steps with ⟨-, still⟩ | ⟨told, later⟩
              · exact ⟨status, still, .inl rfl⟩
              · exact ⟨indexer.status, later, .inr told⟩

/-! ## A status that stays -/

/-- No full scan that is called for by now can tell a status any more. -/
structure Settled (workspace : Workspace) (status : IndexerStatus) (system : Concurrent) : Prop
    extends Regular workspace system, Rests status system where
  behind : ∀ point ∈ system.calls, point.Settled system.indexer.generation

section Settled

variable {workspace : Workspace} {status : IndexerStatus} {system : Concurrent}
  (settled : system.Settled workspace status)
include settled

theorem Settled.step (tree : FileTree) (place pick : Nat) :
    (system.after tree (.step place pick)).Settled workspace status := by
  have regular := settled.toRegular.after tree (.step place pick)
  cases there : system.calls[place]? with
  | none => rwa [after_step_of_none there]
  | some point =>
      rcases after_step there tree pick with ⟨next, indexer, steps, same⟩
      rw [same] at regular ⊢
      have generation := steps.frame.2
      have others {own : CallPoint} (settles : own.Settled system.indexer.generation) :
          ∀ other ∈ system.calls.set place own, other.Settled indexer.generation := by
        intro other member
        rw [generation]
        rcases mem_set_cases member with rfl | ⟨second, -, otherThere⟩
        · exact settles
        · exact settled.behind other (List.mem_of_getElem? otherThere)
      rcases settled.behind point (List.mem_of_getElem? there) with updates | ⟨outdated, older⟩
      · refine ⟨regular, settled.toRests.set_of_update settled.toRegular there updates steps, others ?_⟩
        left
        rw [Option.eq_none_iff_forall_ne_some]
        intro call scans
        simp [steps.scan?_eq scans] at updates
      · -- An outdated scan moves on without touching the indexer.
        rcases steps.eq_of_outdated outdated fun call scans => isStale_of_lt (older call scans) with
          ⟨stillOutdated, rfl⟩
        have notAside {other : CallPoint} (late : other.Outdated) : other.aside? = none := by
          cases other <;> first | rfl | exact late.elim
        refine ⟨regular, settled.toRests.set_of_same there ?_ rfl, others ?_⟩
        · rw [notAside outdated, notAside stillOutdated]
        · exact .inr ⟨stillOutdated, fun call scans => older call (steps.scan?_eq scans)⟩

/-- Only when one more full scan is called for can a status be told that does not stay. -/
theorem Settled.after (tree : FileTree) {event : CallEvent}
    (scanless : ∀ afresh, event ≠ .callScan afresh) :
    (system.after tree event).Settled workspace status := by
  have regular := settled.toRegular.after tree event
  cases event with
  | callScan afresh => exact absurd rfl (scanless afresh)
  | callUpdate path =>
      refine ⟨regular, settled.toRests.append rfl rfl, ?_⟩
      intro point member
      rcases List.mem_append.mp member with old | new
      · exact settled.behind point old
      · rw [List.mem_singleton.mp new]
        exact .inl rfl
  | cancel =>
      refine ⟨regular, ⟨settled.plain, settled.aside, settled.shown⟩, ?_⟩
      intro point member
      rcases settled.behind point member with updates | ⟨outdated, older⟩
      · exact .inl updates
      · exact .inr ⟨outdated, fun call scans => Nat.lt_succ_of_lt (older call scans)⟩
  | step place pick => exact settled.step tree place pick

theorem Settled.through {history : List (FileTree × CallEvent)}
    (scanless : ∀ event ∈ history, ∀ afresh, event.2 ≠ .callScan afresh) :
    (system.through history).Settled workspace status := by
  induction history generalizing system with
  | nil => exact settled
  | cons event history ih =>
      apply ih (settled.after event.1 (scanless event List.mem_cons_self))
      intro later member
      exact scanless later (List.mem_cons_of_mem _ member)

end Settled

/-! ## The newest scan -/

/-- The full scan at a place has not been superseded. When it is over, the index is ready and stays so. -/
structure Unsuperseded (home : Workspace) (place : Nat) (call : ScanCall) (system : Concurrent) :
    Prop extends Regular home system where
  newest : call.generation = system.indexer.generation
  here : ∃ point, system.calls[place]? = some point ∧ point.IsScan call
  older : ∀ other point, other ≠ place → system.calls[other]? = some point →
    ∀ own ∈ point.scan?, own.generation < system.indexer.generation
  settled : ∀ report, system.calls[place]? = some (.scanReturned report) →
    system.Settled home .ready

section Unsuperseded

variable {workspace : Workspace} {place : Nat} {call : ScanCall} {system : Concurrent}

theorem Regular.unsuperseded (regular : system.Regular workspace) (tree : FileTree) (afresh : Bool) :
    (system.after tree (.callScan afresh)).Unsuperseded workspace system.calls.length
      ⟨afresh, system.indexer.generation + 1⟩ := by
  have last : (system.after tree (.callScan afresh)).calls[system.calls.length]? =
      some (.scanWaiting ⟨afresh, system.indexer.generation + 1⟩) := List.getElem?_concat_length
  refine ⟨regular.after tree _, rfl, ⟨_, last, rfl⟩, ?_, ?_⟩
  · intro other point apart there own scans
    rcases getElem?_concat_cases there with old | ⟨itself, -⟩
    · exact Nat.lt_succ_of_le (regular.numbered point (List.mem_of_getElem? old) own scans)
    · exact absurd itself apart
  · intro report returned
    simp [last] at returned

variable (unsuperseded : system.Unsuperseded workspace place call)
include unsuperseded

/-- The end of the newest scan. All others have not done anything yet, or are over. -/
theorem Unsuperseded.settle {tree : FileTree} {point : ScanPoint} {report : ScanReport}
    {indexer : Indexer} (there : system.calls[place]? = some (.scanning call point))
    (unfinished : ∀ report, point ≠ .returned report)
    (step : Indexer.Advances tree call point system.indexer (.returned report) indexer)
    (regular : Regular workspace ⟨indexer, system.calls.set place (.scanReturned report)⟩) :
    Settled workspace .ready ⟨indexer, system.calls.set place (.scanReturned report)⟩ := by
  have fresh : system.indexer.isStale call.generation = false := by
    rw [Indexer.isStale, unsuperseded.newest, bne_self_eq_false]
  have ready := step.ready_of_returned fresh unfinished
  have idle {other : Nat} {second : CallPoint} (apart : other ≠ place)
      (otherThere : system.calls[other]? = some second) : second.isAtWork = false := by
    by_contra working
    rw [Bool.not_eq_false] at working
    exact apart (unsuperseded.exclusive _ _ _ otherThere _ there working rfl)
  have rests : Rests indexer.status ⟨indexer, system.calls.set place (.scanReturned report)⟩ := by
    apply rests_of_told
    · simp [ready]
    · rfl
    · intro other second apart otherThere
      exact CallPoint.aside?_of_idle (idle apart otherThere)
  rw [ready] at rests
  refine ⟨regular, rests, ?_⟩
  intro second member
  rcases mem_set_cases member with rfl | ⟨other, apart, otherThere⟩
  · exact .inl rfl
  · have older := unsuperseded.older other second apart otherThere
    rw [← step.frame.2] at older
    exact CallPoint.settled_of_idle (idle apart otherThere) older

theorem Unsuperseded.step (tree : FileTree) (moved pick : Nat) :
    (system.after tree (.step moved pick)).Unsuperseded workspace place call := by
  have regular := unsuperseded.toRegular.after tree (.step moved pick)
  cases there : system.calls[moved]? with
  | none => rwa [after_step_of_none there]
  | some point =>
      have settles := fun report returned => (unsuperseded.settled report returned).step tree moved pick
      rcases after_step there tree pick with ⟨next, indexer, steps, same⟩
      rw [same] at regular settles ⊢
      have generation := steps.frame.2
      have inRange := (List.getElem?_eq_some_iff.mp there).1
      rcases unsuperseded.here with ⟨own, ownThere, scan⟩
      have newest : call.generation = indexer.generation := unsuperseded.newest.trans generation.symm
      have older : ∀ other second, other ≠ place → (system.calls.set moved next)[other]? = some second →
          ∀ its ∈ second.scan?, its.generation < indexer.generation := by
        intro other second apart otherThere its scans
        rw [generation]
        by_cases itself : moved = other
        · subst itself
          rw [List.getElem?_set_self inRange] at otherThere
          obtain rfl := Option.some.inj otherThere
          exact unsuperseded.older moved point apart there its (steps.scan?_eq scans)
        · rw [List.getElem?_set_ne itself] at otherThere
          exact unsuperseded.older other second apart otherThere its scans
      by_cases itself : moved = place
      · subst itself
        obtain rfl := Option.some.inj (there.symm.trans ownThere)
        have self : (system.calls.set moved next)[moved]? = some next := List.getElem?_set_self inRange
        refine ⟨regular, newest, ⟨next, self, steps.isScan scan⟩, older, ?_⟩
        intro report returned
        obtain rfl := Option.some.inj (self.symm.trans returned)
        -- It was over before, or this is its last step.
        cases steps with
        | rest => exact settles report there
        | endScan step =>
            rcases scan with ⟨rfl, unfinished⟩
            exact unsuperseded.settle there unfinished step regular
      · refine ⟨regular, newest, ⟨own, (List.getElem?_set_ne itself).trans ownThere, scan⟩, older, ?_⟩
        intro report returned
        rw [List.getElem?_set_ne itself] at returned
        exact settles report returned

theorem Unsuperseded.through {history : List (FileTree × CallEvent)}
    (left : ∀ event ∈ history, event.2 ≠ .cancel ∧ ∀ afresh, event.2 ≠ .callScan afresh) :
    (system.through history).Unsuperseded workspace place call := by
  induction history generalizing system with
  | nil => exact unsuperseded
  | cons event history ih =>
      refine ih ?_ fun later member => left later (List.mem_cons_of_mem _ member)
      have alone := left event List.mem_cons_self
      rcases event with ⟨tree, event⟩
      cases event with
      | callScan afresh => exact absurd rfl (alone.2 afresh)
      | cancel => exact absurd rfl alone.1
      | step moved pick => exact unsuperseded.step tree moved pick
      | callUpdate path =>
          have noScan : ∀ afresh, CallEvent.callUpdate path ≠ .callScan afresh := by simp
          have settles := fun report returned =>
            (unsuperseded.settled report returned).after tree noScan
          rcases unsuperseded.here with ⟨own, ownThere, scan⟩
          have inRange := (List.getElem?_eq_some_iff.mp ownThere).1
          have still : (system.calls ++ [.updateWaiting path])[place]? = system.calls[place]? :=
            List.getElem?_append_left inRange
          refine ⟨unsuperseded.toRegular.after tree _, unsuperseded.newest,
            ⟨own, still.trans ownThere, scan⟩, ?_, ?_⟩
          · intro other point apart there its scans
            rcases getElem?_concat_cases there with old | ⟨-, rfl⟩
            · exact unsuperseded.older other point apart old its scans
            · simp [CallPoint.scan?] at scans
          · intro report returned
            exact settles report (still.symm.trans returned)

end Unsuperseded

/-! ## Updates from their turn to their end -/

/-- The next step of the update at a place is its first one at work, and its last step brings the other
state. In between files may change, and other calls may be made and make their steps. -/
inductive CompletesUpdate (place : Nat) (before : Concurrent) : FileOutcome → Concurrent → Prop where
  | atOnce {path : Path} {outcome : FileOutcome} {tree : FileTree} {pick : Nat}
      (waits : before.calls[place]? = some (.updateWaiting path))
      (returned : (before.after tree (.step place pick)).calls[place]? =
        some (.updateReturned outcome)) :
      CompletesUpdate place before outcome (before.after tree (.step place pick))
  | later {path relative : Path} {outcome : FileOutcome} {aside kept : IndexerStatus}
      {tree last : FileTree} {pick lastPick : Nat} {meanwhile : List (FileTree × CallEvent)}
      (waits : before.calls[place]? = some (.updateWaiting path))
      (begins : (before.after tree (.step place pick)).calls[place]? =
        some (.updating relative aside))
      (updated : ((before.after tree (.step place pick)).through meanwhile).calls[place]? =
        some (.updated outcome kept)) :
      CompletesUpdate place before outcome
        (((before.after tree (.step place pick)).through meanwhile).after last (.step place lastPick))

theorem aside?_through {system : Concurrent} {place : Nat} {point : CallPoint}
    {before : IndexerStatus} (there : system.calls[place]? = some point)
    (kept : point.aside? = some before ∨ point.isOver) (history : List (FileTree × CallEvent)) :
    ∃ later, (system.through history).calls[place]? = some later ∧
      (later.aside? = some before ∨ later.isOver) := by
  induction history generalizing system point with
  | nil => exact ⟨point, there, kept⟩
  | cons event history ih =>
      rcases event with ⟨tree, event⟩
      have inRange := (List.getElem?_eq_some_iff.mp there).1
      cases event with
      | callScan afresh => exact ih ((List.getElem?_append_left inRange).trans there) kept
      | callUpdate path => exact ih ((List.getElem?_append_left inRange).trans there) kept
      | cancel => exact ih there kept
      | step moved pick =>
          have onward : ∃ next, (system.after tree (.step moved pick)).calls[place]? = some next ∧
              (next.aside? = some before ∨ next.isOver) := by
            cases movedThere : system.calls[moved]? with
            | none =>
                rw [after_step_of_none movedThere]
                exact ⟨point, there, kept⟩
            | some other =>
                rcases after_step movedThere tree pick with ⟨next, indexer, steps, same⟩
                rw [same]
                -- Only its own steps change what a call has put aside.
                by_cases itself : moved = place
                · subst itself
                  obtain rfl := Option.some.inj (there.symm.trans movedThere)
                  refine ⟨next, List.getElem?_set_self inRange, ?_⟩
                  cases steps with
                  | rest => exact kept
                  | update => exact kept.imp_right fun ended => by simp [CallPoint.isOver] at ended
                  | endUpdate => exact .inr rfl
                  | _ => simp [CallPoint.aside?, CallPoint.isOver] at kept
                · exact ⟨point, (List.getElem?_set_ne itself).trans there, kept⟩
          rcases onward with ⟨next, nextThere, nextKept⟩
          exact ih nextThere nextKept

/-- An update leaves the status as it found it. -/
theorem CompletesUpdate.status_eq {place : Nat} {before after : Concurrent} {outcome : FileOutcome}
    (completes : CompletesUpdate place before outcome after) {status : IndexerStatus}
    (rests : before.Rests status) : after.indexer.status = before.indexer.status := by
  cases completes with
  | @atOnce _ _ tree pick waits returned =>
      rcases after_step waits tree pick with ⟨next, indexer, steps, same⟩
      have inRange := (List.getElem?_eq_some_iff.mp waits).1
      rw [same] at returned ⊢
      rw [List.getElem?_set_self inRange] at returned
      obtain rfl := Option.some.inj returned
      cases steps with
      | skip => rfl
  | @later _ _ _ aside kept tree last pick lastPick meanwhile waits begins updated =>
      have putAside : before.isBusy = false ∧ aside = before.indexer.status := by
        rcases after_step waits tree pick with ⟨next, indexer, steps, same⟩
        have inRange := (List.getElem?_eq_some_iff.mp waits).1
        rw [same, List.getElem?_set_self inRange] at begins
        obtain rfl := Option.some.inj begins
        cases steps with
        | beginUpdate free => exact ⟨free, rfl⟩
      have found := rests.shown (aside?_of_free putAside.1)
      rcases aside?_through begins (.inl rfl) meanwhile with ⟨point, there, still⟩
      obtain rfl := Option.some.inj (updated.symm.trans there)
      rcases after_step updated last lastPick with ⟨returned, indexer, steps, same⟩
      rw [same]
      cases steps with
      | rest idle => simp [CallPoint.isAtWork, CallPoint.isOver, CallPoint.isWaiting] at idle
      | endUpdate =>
          have own : kept = aside := by
            simpa [CallPoint.aside?, CallPoint.isOver] using still
          rw [own, putAside.2, found]
          exact Indexer.statusAfterUpdate_of_plain rests.plain

/-! ## When all calls are over -/

theorem Rests.through {workspace : Workspace} {system : Concurrent} {status : IndexerStatus}
    (rests : system.Rests status) (regular : system.Regular workspace)
    (history : List (FileTree × CallEvent)) :
    ∃ later, (system.through history).Rests later ∧
      (later = status ∨ later = .scanning ∨ later = .ready) := by
  induction history generalizing system status with
  | nil => exact ⟨status, rests, .inl rfl⟩
  | cons event history ih =>
      rcases rests.after regular event.1 event.2 with ⟨middle, onward, first⟩
      rcases ih onward (regular.after event.1 event.2) with ⟨later, ends, second⟩
      refine ⟨later, ends, ?_⟩
      rcases second with rfl | told
      · exact first
      · exact .inr told

theorem Regular.through {workspace : Workspace} {system : Concurrent}
    (regular : system.Regular workspace) (history : List (FileTree × CallEvent)) :
    (system.through history).Regular workspace := by
  induction history generalizing system with
  | nil => exact regular
  | cons event history ih => exact ih (regular.after event.1 event.2)

theorem aside?_of_over {system : Concurrent} (allOver : ∀ point ∈ system.calls, point.isOver) :
    ∀ point ∈ system.calls, point.aside? = none := by
  intro point member
  apply CallPoint.aside?_of_idle
  rw [CallPoint.isAtWork, allOver point member]
  rfl

/-- When all calls are over, no status of an update is left: the indexer shows the status that it showed
at first, or one that a full scan told. It is ready if nothing was cancelled since the last full scan was
called for. An update leaves the status as it found it. -/
theorem status_of_calls {indexer : Indexer} (hasHistory : indexer.index.HasHistory)
    (plain : ∀ path, indexer.status ≠ .updating path) (history : List (FileTree × CallEvent)) :
    let system := (idle indexer).through history
    ((∀ point ∈ system.calls, point.isOver) →
      (∀ path, system.indexer.status ≠ .updating path) ∧
      (system.indexer.status = indexer.status ∨ system.indexer.status = .scanning ∨
        system.indexer.status = .ready) ∧
      ((∀ event ∈ history, ∀ afresh, event.2 ≠ .callScan afresh) →
        system.indexer.status = indexer.status) ∧
      ∀ early tree afresh late, history = early ++ (tree, .callScan afresh) :: late →
        (∀ event ∈ late, event.2 ≠ .cancel ∧ ∀ again, event.2 ≠ .callScan again) →
        system.indexer.status = .ready) ∧
    ∀ place outcome after, system.CompletesUpdate place outcome after →
      after.indexer.status = system.indexer.status := by
  intro system
  have regular : (idle indexer).Regular indexer.workspace := idle_regular hasHistory rfl
  have rests := idle_rests plain
  rcases rests.through regular history with ⟨later, ends, told⟩
  constructor
  · intro allOver
    have shown : system.indexer.status = later := ends.shown (aside?_of_over allOver)
    refine ⟨?_, ?_, ?_, ?_⟩
    · rw [shown]
      exact ends.plain
    · rwa [shown]
    · intro scanless
      have settled : (idle indexer).Settled indexer.workspace indexer.status :=
        ⟨regular, rests, by simp [idle]⟩
      exact (settled.through scanless).shown (aside?_of_over allOver)
    · rintro early tree afresh late rfl alone
      have called := ((regular.through early).unsuperseded tree afresh).through alone
      have same : system = (((idle indexer).through early).after tree (.callScan afresh)).through late :=
        List.foldl_append
      rw [← same] at called
      rcases called.here with ⟨point, there, scan⟩
      have isOver := allOver point (List.mem_of_getElem? there)
      cases point with
      | scanReturned report => exact (called.settled report there).shown (aside?_of_over allOver)
      | updateReturned outcome => exact scan.elim
      | _ => simp [CallPoint.isOver] at isOver
  · intro place outcome after completes
    exact completes.status_eq ends

/-- Events between which no file changes. -/
def withFiles (tree : FileTree) (events : List CallEvent) : List (FileTree × CallEvent) :=
  events.map fun event => (tree, event)

theorem through_withFiles (system : Concurrent) (tree : FileTree) (events : List CallEvent) :
    system.through (withFiles tree events) = system.run tree events :=
  List.foldl_map

theorem length_run_steps (system : Concurrent) (tree : FileTree) (place count : Nat) :
    (system.run tree (List.replicate count (.step place 0))).calls.length = system.calls.length := by
  induction count generalizing system with
  | zero => rfl
  | succ count ih =>
      refine (ih (system.after tree (.step place 0))).trans ?_
      cases there : system.calls[place]? with
      | none => rw [after_step_of_none there]
      | some point =>
          rcases after_step there tree 0 with ⟨next, indexer, -, same⟩
          rw [same, List.length_set]

/-- A rebuild is cancelled as it begins, another scan is called for and makes some steps. -/
def scanAfterCancel (steps : Nat) : List CallEvent :=
  [.callScan true, .step 0 0, .cancel, .step 0 0] ++
    .callScan false :: .step 1 0 :: List.replicate steps (.step 1 0)

/-- Both scans are over after some steps. -/
theorem isOver_of_scanAfterCancel :
    ∃ steps,
      let system := (idle (.new looseWorkspace)).through
        (withFiles looseSources (scanAfterCancel steps))
      system.calls.length = 2 ∧ ∀ point ∈ system.calls, point.isOver := by
  let begun := (idle (.new looseWorkspace)).run looseSources (scanAfterCancel 0)
  have first : begun.calls[0]? = some (.scanReturned .superseded) := rfl
  have second : begun.calls[1]? = some (.scanning ⟨false, 3⟩ .entered) := rfl
  rcases scanning_ends looseSources second rfl (by simp) le_rfl with ⟨steps, _, report, -, returned, -⟩
  let later : List CallEvent := List.replicate (steps + 1) (.step 1 0)
  have runs : (idle (.new looseWorkspace)).through
      (withFiles looseSources (scanAfterCancel (steps + 1))) = begun.run looseSources later := by
    rw [through_withFiles]
    rfl
  have length_eq : (begun.run looseSources later).calls.length = 2 :=
    length_run_steps begun looseSources 1 (steps + 1)
  have firstOver := returned_run first looseSources later
  have secondOver : (begun.run looseSources later).calls[1]? = some (.scanReturned report) := by
    simp only [later]
    rw [run, List.replicate_succ', List.foldl_append]
    exact returned
  refine ⟨steps + 1, ?_⟩
  rw [runs]
  refine ⟨length_eq, ?_⟩
  intro point member
  rcases List.mem_iff_getElem?.mp member with ⟨place, there⟩
  rcases place with _ | _ | place
  · rw [← Option.some.inj (firstOver.symm.trans there)]
    rfl
  · rw [← Option.some.inj (secondOver.symm.trans there)]
    rfl
  · have inRange := (List.getElem?_eq_some_iff.mp there).1
    omega

theorem status_of_calls_of_repeated :
    ∃ steps,
      let system := (idle (.new looseWorkspace)).through
        (withFiles looseSources (scanAfterCancel steps))
      system.calls.length = 2 ∧ (∀ point ∈ system.calls, point.isOver) ∧
        system.indexer.status = .ready := by
  rcases isOver_of_scanAfterCancel with ⟨steps, length_eq, allOver⟩
  have plain : ∀ path, (Indexer.new looseWorkspace).status ≠ .updating path := by simp [Indexer.new]
  rcases status_of_calls SymbolIndex.empty_hasHistory plain
    (withFiles looseSources (scanAfterCancel steps)) with ⟨atRest, -⟩
  rcases atRest allOver with ⟨-, -, -, ready⟩
  refine ⟨steps, length_eq, allOver, ?_⟩
  refine ready (withFiles looseSources [.callScan true, .step 0 0, .cancel, .step 0 0]) looseSources
    false (withFiles looseSources (.step 1 0 :: List.replicate steps (.step 1 0))) rfl ?_
  intro event member
  rcases List.mem_map.mp member with ⟨step, stepMember, rfl⟩
  rcases List.mem_cons.mp stepMember with rfl | later
  · simp
  · rw [List.eq_of_mem_replicate later]
    simp

/-! ## A scan that is given up -/

/-- A stale scan passes over the files that are left and tells nothing when it is over. -/
theorem run_of_stale {call : ScanCall} {indexer : Indexer}
    (stale : indexer.isStale call.generation = true) (tree : FileTree) (left : List Path)
    (progress : ScanProgress) :
    (Concurrent.mk indexer [.scanning call (.committing left [] progress)]).run tree
        (List.replicate (left.length + 1) (.step 0 0)) =
      ⟨indexer, [.scanReturned .superseded]⟩ := by
  induction left with
  | nil =>
      change (Concurrent.mk indexer [.scanning call (.committing [] [] progress)]).after tree
        (.step 0 0) = _
      simp [after, advanceCall, Indexer.advance, stale]
  | cons path left ih =>
      have passes : (Concurrent.mk indexer [.scanning call (.committing (path :: left) [] progress)]).after
          tree (.step 0 0) = ⟨indexer, [.scanning call (.committing left [] progress)]⟩ := by
        simp [after, advanceCall, Indexer.advance, stale]
      rw [List.length_cons, List.replicate_succ]
      change ((Concurrent.mk indexer _).after tree (.step 0 0)).run tree _ = _
      rw [passes]
      exact ih

/-- A rebuild is cancelled after it has said that it is scanning. -/
def rebuildCancelled : List CallEvent :=
  [.callScan true, .step 0 0, .step 0 0, .step 0 0, .step 0 0, .step 0 0, .step 0 0, .cancel]

theorem run_rebuildCancelled (tree : FileTree) (workspace : Workspace) :
    ∃ indexer, (idle (.new workspace)).run tree rebuildCancelled =
        ⟨indexer, [.scanning ⟨true, 1⟩ (.committing (workspace.collect tree) [] .none)]⟩ ∧
      indexer.isStale 1 = true ∧ indexer.status = .scanning := by
  simp [rebuildCancelled, run, after, idle, advanceCall, Indexer.advance, Indexer.callScan, Indexer.new,
    Indexer.cancel, Indexer.isStale, Indexer.clear, Indexer.announce, isBusy, CallPoint.isAtWork,
    CallPoint.isOver, CallPoint.isWaiting]

/-- In any workspace, a rebuild that is cancelled in time leaves the status of a scan behind. -/
theorem scanning_of_cancelled (tree : FileTree) (workspace : Workspace) :
    let system := (idle (.new workspace)).run tree (rebuildCancelled ++
      List.replicate ((workspace.collect tree).length + 1) (.step 0 0))
    system.calls = [.scanReturned .superseded] ∧ system.indexer.status = .scanning := by
  intro system
  rcases run_rebuildCancelled tree workspace with ⟨indexer, begun, stale, scanning⟩
  have ends : system = ⟨indexer, [.scanReturned .superseded]⟩ := by
    simp only [system]
    rw [run, List.foldl_append]
    change ((idle (.new workspace)).run tree rebuildCancelled).run tree _ = _
    rw [begun]
    exact run_of_stale stale tree _ _
  rw [ends]
  exact ⟨rfl, scanning⟩

/-- No call is in progress any more, and yet the status says that the workspace is being scanned. -/
theorem scanning_at_rest :
    let system := (idle (.new looseWorkspace)).run looseSources (rebuildCancelled ++
      List.replicate ((looseWorkspace.collect looseSources).length + 1) (.step 0 0))
    (∀ point ∈ system.calls, point.isOver) ∧ system.indexer.status = .scanning := by
  rcases scanning_of_cancelled looseSources looseWorkspace with ⟨calls, status⟩
  refine ⟨?_, status⟩
  rw [calls]
  simp [CallPoint.isOver]

end Concurrent

end AutoImport
