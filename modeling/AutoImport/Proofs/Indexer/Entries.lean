import AutoImport.Import.Resolve
import AutoImport.Proofs.Import.SharedKey
import AutoImport.Proofs.Indexer.Exports

/-!
# The symbols of one entry

The index lists under one key the symbols of files that share the key, and those of packages and quoted
modules that are named like it. Whether a document imports two of them by one specifier is told by their
paths and by where the document lies.
-/

namespace AutoImport

/-! ## The files of an index lead down -/

namespace SymbolIndex

/-- All files of an index lead down from the root of the workspace. -/
def LeadsDown (index : SymbolIndex) : Prop :=
  ∀ path, ∀ symbol ∈ index.symbolsInFile path, symbol.path.LeadsDown

theorem empty_leadsDown : empty.LeadsDown := by
  intro path symbol member
  cases member

section Changes

variable {index : SymbolIndex} (history : index.HasHistory) (down : index.LeadsDown)
include history down

theorem LeadsDown.removeFile (path : Path) : (index.removeFile path).LeadsDown := by
  intro other symbol member
  rw [symbolsInFile_removeFile history.keeps.filed] at member
  split at member
  · cases member
  · exact down other symbol member

theorem LeadsDown.foldl_removeFile (paths : List Path) : (paths.foldl SymbolIndex.removeFile index).LeadsDown := by
  induction paths generalizing index with
  | nil => exact down
  | cons path paths ih => exact ih (history.removeFile path) (down.removeFile history path)

end Changes

end SymbolIndex

theorem Workspace.leadsDown_of_mem_collect {workspace : Workspace} {tree : FileTree}
    (wellFormed : tree.WellFormed) {path : Path} (member : path ∈ workspace.collect tree) :
    path.LeadsDown := by
  rcases (Workspace.mem_collect wellFormed).mp member with ⟨names, found, rfl⟩
  exact ⟨names, found.isEntryName wellFormed, rfl⟩

namespace Indexer

variable {indexer : Indexer} (history : indexer.index.HasHistory) (down : indexer.index.LeadsDown)
include history down

theorem leadsDown_commit (tree : FileTree) {path : Path} (leads : path.LeadsDown) :
    (indexer.commit tree path).2.index.LeadsDown := by
  intro other symbol member
  rw [symbolsInFile_commit_eq history] at member
  split at member
  · unfold symbolsRead at member
    split at member
    · cases member
    · rw [SymbolIndex.attributed_path member]
      exact leads
  · exact down other symbol member

theorem leadsDown_sweep (seen : List Path) : (indexer.sweep seen).index.LeadsDown := by
  rw [sweep_eq]
  exact down.foldl_removeFile history _

theorem leadsDown_updateFile (tree : FileTree) {path : Path} (leads : path.LeadsDown) :
    (indexer.updateFile tree path).2.index.LeadsDown := by
  rw [updateFile_snd]
  split
  · exact leadsDown_commit history down tree leads
  · exact down.removeFile history path

end Indexer

/-- The files that a scan has yet to put into the index. -/
def ScanPoint.pending : ScanPoint → List Path
  | .committing left taken _ => left ++ taken
  | _ => []

/-- The files that a call has yet to put into the index. -/
def CallPoint.pending : CallPoint → List Path
  | .scanning _ point => point.pending
  | .updating path _ => [path]
  | _ => []

theorem Indexer.Advances.leadsDown {tree : FileTree} (wellFormed : tree.WellFormed) {call : ScanCall}
    {point next : ScanPoint} {indexer after : Indexer} (step : Advances tree call point indexer next after)
    (history : indexer.index.HasHistory) (down : indexer.index.LeadsDown)
    (pending : ∀ path ∈ point.pending, path.LeadsDown) :
    after.index.LeadsDown ∧ ∀ path ∈ next.pending, path.LeadsDown := by
  have nothing : ∀ path ∈ ([] : List Path), path.LeadsDown := by simp
  cases step with
  | stay => exact ⟨down, pending⟩
  | clear => exact ⟨SymbolIndex.empty_leadsDown, nothing⟩
  | collect =>
      refine ⟨down, fun path member => ?_⟩
      apply Workspace.leadsDown_of_mem_collect wellFormed
      simpa [ScanPoint.pending] using member
  | passOver stale chosen =>
      refine ⟨down, fun path member => pending path ?_⟩
      rcases List.mem_append.mp member with old | taken
      · exact List.mem_append_left _ (chosen.symm.subset (List.mem_cons_of_mem _ old))
      · exact List.mem_append_right _ taken
  | take fresh chosen =>
      refine ⟨down, fun path member => pending path ?_⟩
      rcases List.mem_append.mp member with old | taken
      · exact List.mem_append_left _ (chosen.symm.subset (List.mem_cons_of_mem _ old))
      · rcases List.mem_append.mp taken with before | new
        · exact List.mem_append_right _ before
        · exact List.mem_append_left _ (chosen.symm.subset (List.mem_singleton.mp new ▸ List.mem_cons_self))
  | commit chosen =>
      have leads := pending _ (List.mem_append_right _ (chosen.symm.subset List.mem_cons_self))
      refine ⟨leadsDown_commit history down tree leads, fun path member => pending path ?_⟩
      rcases List.mem_append.mp member with left | old
      · exact List.mem_append_left _ left
      · exact List.mem_append_right _ (chosen.symm.subset (List.mem_cons_of_mem _ old))
  | sweep => exact ⟨leadsDown_sweep history down _, nothing⟩
  | _ => exact ⟨down, nothing⟩

theorem CallPoint.Steps.leadsDown {tree : FileTree} (wellFormed : tree.WellFormed) {busy : Bool}
    {point next : CallPoint} {indexer after : Indexer} (steps : Steps tree busy point indexer next after)
    (named : indexer.workspace.rootPath.fileName?.isSome = true)
    (history : indexer.index.HasHistory) (down : indexer.index.LeadsDown)
    (pending : ∀ path ∈ point.pending, path.LeadsDown) :
    after.index.LeadsDown ∧ ∀ path ∈ next.pending, path.LeadsDown := by
  have nothing : ∀ path ∈ ([] : List Path), path.LeadsDown := by simp
  cases steps with
  | rest => exact ⟨down, pending⟩
  | scan step => exact step.leadsDown wellFormed history down pending
  | endScan step => exact ⟨(step.leadsDown wellFormed history down pending).1, nothing⟩
  | beginUpdate free seen =>
      exact ⟨down, List.forall_mem_singleton.mpr (Workspace.leadsDown_of_relativize? named seen)⟩
  | update =>
      have leads := List.forall_mem_singleton.mp pending
      exact ⟨Indexer.leadsDown_updateFile history down tree leads, nothing⟩
  | _ => exact ⟨down, nothing⟩

namespace Concurrent

/-- The index of a workspace and the calls on it are about files that lead down from the root. -/
structure LeadsDown (workspace : Workspace) (system : Concurrent) : Prop
    extends Regular workspace system where
  indexed : system.indexer.index.LeadsDown
  pending : ∀ point ∈ system.calls, ∀ path ∈ point.pending, path.LeadsDown

theorem idle_leadsDown (workspace : Workspace) : (idle (.new workspace)).LeadsDown workspace where
  toRegular := idle_regular SymbolIndex.empty_hasHistory rfl
  indexed := SymbolIndex.empty_leadsDown
  pending := by simp [idle]

section LeadsDown

variable {workspace : Workspace} {system : Concurrent} (down : system.LeadsDown workspace)
include down

theorem LeadsDown.append {last : CallPoint} (idle : last.pending = []) :
    ∀ point ∈ system.calls ++ [last], ∀ path ∈ point.pending, path.LeadsDown := by
  intro point member
  rcases List.mem_append.mp member with old | new
  · exact down.pending point old
  · rw [List.mem_singleton.mp new, idle]
    simp

variable (named : workspace.rootPath.fileName?.isSome = true)
include named

theorem LeadsDown.after {tree : FileTree} (wellFormed : tree.WellFormed) (event : CallEvent) :
    (system.after tree event).LeadsDown workspace := by
  have regular := down.toRegular.after tree event
  cases event with
  | callScan afresh => exact ⟨regular, down.indexed, down.append rfl⟩
  | callUpdate path => exact ⟨regular, down.indexed, down.append rfl⟩
  | cancel => exact ⟨regular, down.indexed, down.pending⟩
  | step place pick =>
      cases there : system.calls[place]? with
      | none => rwa [after_step_of_none there]
      | some point =>
          rcases after_step there tree pick with ⟨next, indexer, steps, same⟩
          rw [same] at regular ⊢
          have before := down.pending point (List.mem_of_getElem? there)
          have root : system.indexer.workspace.rootPath.fileName?.isSome = true := by
            rw [down.workspace]
            exact named
          rcases steps.leadsDown wellFormed root down.history down.indexed before with
            ⟨indexed, pending⟩
          refine ⟨regular, indexed, fun other member => ?_⟩
          rcases List.mem_or_eq_of_mem_set member with old | rfl
          · exact down.pending other old
          · exact pending

theorem LeadsDown.through {history : List (FileTree × CallEvent)}
    (wellFormed : ∀ event ∈ history, event.1.WellFormed) :
    (system.through history).LeadsDown workspace := by
  induction history generalizing system with
  | nil => exact down
  | cons event history ih =>
      rcases List.forall_mem_cons.mp wellFormed with ⟨first, later⟩
      exact ih (down.after named first event.2) later

end LeadsDown

end Concurrent

/-! ## Two symbols of an entry -/

/-- Whether a document in a directory imports two symbols of one entry by one specifier: both belong to
packages or to quoted modules, or neither does and their files are alike from there. -/
def ExportedSymbol.OneModule (document : Path) (left right : ExportedSymbol) : Prop :=
  left.specifier.isSome = true ∧ right.specifier.isSome = true ∨
    left.specifier = none ∧ right.specifier = none ∧
      Path.AlikeFrom document.normalize.directory left.path right.path

instance (document : Path) (left right : ExportedSymbol) : Decidable (left.OneModule document right) :=
  inferInstanceAs (Decidable (_ ∨ _))

theorem specifier_of_resolveModule {document : Path} {symbol : ExportedSymbol} {specifier : String}
    (resolved : resolveModule document symbol = .ok specifier) :
    symbol.specifier = some specifier ∨
      symbol.specifier = none ∧ relativeSpecifier? document symbol.path = some specifier := by
  unfold resolveModule at resolved
  split at resolved
  · cases resolved
  · split at resolved
    · rename_i declared
      exact .inl (Except.ok.inj resolved ▸ declared)
    · rename_i undeclared
      split at resolved
      · rename_i found
        exact .inr ⟨undeclared, Except.ok.inj resolved ▸ found⟩
      · cases resolved

section Resolved

variable {document : Path} {left right : ExportedSymbol} {specifier other : String}
  (sameKey : left.moduleKey = right.moduleKey)
include sameKey

/-- A package is not reached by a relative specifier. -/
theorem specifier_ne_of_declared (down : right.path.LeadsDown) (declared : left.specifier = some specifier)
    (undeclared : right.specifier = none) (found : relativeSpecifier? document right.path = some other)
    (outside : document.normalize.directory.isWithin right.path = false) : specifier ≠ other := by
  simp only [ExportedSymbol.moduleKey, declared, undeclared, Option.getD_some, Option.getD_none] at sameKey
  rw [sameKey]
  exact (specifier_ne_moduleKey down found outside).symm

theorem oneModule_of_resolved (leftDown : left.path.LeadsDown) (rightDown : right.path.LeadsDown)
    (leftResolved : resolveModule document left = .ok specifier)
    (rightResolved : resolveModule document right = .ok other) :
    (left.OneModule document right → specifier = other) ∧
      (specifier = other → left.OneModule document right ∨
        document.normalize.directory.isWithin left.path = true ∨
        document.normalize.directory.isWithin right.path = true) := by
  rcases specifier_of_resolveModule leftResolved with declared | ⟨undeclared, found⟩
  · rcases specifier_of_resolveModule rightResolved with otherDeclared | ⟨otherUndeclared, otherFound⟩
    · simp only [ExportedSymbol.moduleKey, declared, otherDeclared, Option.getD_some] at sameKey
      exact ⟨fun _ => sameKey, fun _ => .inl (.inl (by simp [declared, otherDeclared]))⟩
    · refine ⟨fun one => ?_, fun same => ?_⟩
      · simp [ExportedSymbol.OneModule, declared, otherUndeclared] at one
      · by_contra neither
        simp only [not_or, Bool.not_eq_true] at neither
        exact specifier_ne_of_declared sameKey rightDown declared otherUndeclared otherFound
          neither.2.2 same
  · rcases specifier_of_resolveModule rightResolved with otherDeclared | ⟨otherUndeclared, otherFound⟩
    · refine ⟨fun one => ?_, fun same => ?_⟩
      · simp [ExportedSymbol.OneModule, undeclared, otherDeclared] at one
      · by_contra neither
        simp only [not_or, Bool.not_eq_true] at neither
        exact specifier_ne_of_declared sameKey.symm leftDown otherDeclared undeclared found
          neither.2.1 same.symm
    · simp only [ExportedSymbol.moduleKey, undeclared, otherUndeclared, Option.getD_none] at sameKey
      have alike := relativeSpecifier?_of_sameKey leftDown rightDown sameKey found otherFound
      simpa [ExportedSymbol.OneModule, undeclared, otherUndeclared] using alike

end Resolved

namespace Concurrent

/-- Two symbols of one entry are imported by one specifier just when they are of one module as seen from
the document, unless this lies below one of their files. This is so of files that lead down from the root
of the workspace, as all do when the root is not that of all directories. -/
theorem specifier_of_entry {workspace : Workspace} {history : List (FileTree × CallEvent)}
    (wellFormed : ∀ event ∈ history, event.1.WellFormed) {key : String} {symbols : List ExportedSymbol}
    (entry : ((idle (.new workspace)).through history).indexer.index.getModule? key = some symbols) :
    (workspace.rootPath.fileName?.isSome = true → ∀ symbol ∈ symbols, symbol.path.LeadsDown) ∧
      ∀ left ∈ symbols, ∀ right ∈ symbols, left.path.LeadsDown → right.path.LeadsDown →
        ∀ (document : Path) (specifier other : String),
          resolveModule document left = .ok specifier → resolveModule document right = .ok other →
            (left.OneModule document right → specifier = other) ∧
              (specifier = other → left.OneModule document right ∨
                document.normalize.directory.isWithin left.path = true ∨
                document.normalize.directory.isWithin right.path = true) := by
  have indexHistory := (Reached.regular ⟨history, rfl⟩ : Regular workspace _).history
  have filed {symbol : ExportedSymbol} (member : symbol ∈ symbols) :=
    indexHistory.mem_getModule.mp ⟨⟨symbols, entry, member⟩, Path.Same.refl symbol.path⟩
  constructor
  · intro named symbol member
    have down := (idle_leadsDown workspace).through named wellFormed
    exact down.indexed symbol.path symbol (filed member).1
  · intro left leftMember right rightMember leftDown rightDown document specifier other resolved
    apply oneModule_of_resolved _ leftDown rightDown resolved
    exact (filed leftMember).2.trans (filed rightMember).2.symm

/-- Two files of one key, and a quoted module that is named like it. -/
def fooSources : FileTree :=
  ⟨[(["w"], .directory), (["w", "foo.ts"], .file (.text "export let a")), (["w", "foo"], .directory),
    (["w", "foo", "index.ts"], .file (.text "export let b")),
    (["w", "types.d.ts"], .file (.text "declare module \"foo\" \x7b export let c \x7d"))]⟩

/-- Updates of these files, one after the other. -/
def fooUpdates : List (FileTree × CallEvent) :=
  [.callUpdate ⟨"foo.ts"⟩, .step 0 0, .step 0 0, .step 0 0, .callUpdate ⟨"foo/index.ts"⟩, .step 1 0,
    .step 1 0, .step 1 0, .callUpdate ⟨"types.d.ts"⟩, .step 2 0, .step 2 0, .step 2 0].map
      fun event => (fooSources, event)

def fooSymbols : List ExportedSymbol :=
  [⟨"a", .variable, ⟨"foo.ts"⟩, none⟩, ⟨"b", .variable, ⟨"foo/index.ts"⟩, none⟩,
    ⟨"c", .variable, ⟨"types.d.ts"⟩, some "foo"⟩]

theorem fooUpdates_wellFormed : ∀ event ∈ fooUpdates, event.1.WellFormed := by
  have wellFormed : fooSources.WellFormed := by decide
  intro event member
  rcases List.mem_map.mp member with ⟨-, -, rfl⟩
  exact wellFormed

theorem getModule?_foo :
    ((idle (.new looseWorkspace)).through fooUpdates).indexer.index.getModule? "foo" = some fooSymbols := by
  decide +kernel

/-- A document beside both files imports them by one specifier, and one in the directory does not. -/
theorem specifier_of_entry_foo :
    (∃ specifier other, resolveModule ⟨"x.ts"⟩ ⟨"a", .variable, ⟨"foo.ts"⟩, none⟩ = .ok specifier ∧
        resolveModule ⟨"x.ts"⟩ ⟨"b", .variable, ⟨"foo/index.ts"⟩, none⟩ = .ok other ∧
          specifier = other) ∧
      ∃ specifier other, resolveModule ⟨"foo/x.ts"⟩ ⟨"a", .variable, ⟨"foo.ts"⟩, none⟩ = .ok specifier ∧
        resolveModule ⟨"foo/x.ts"⟩ ⟨"b", .variable, ⟨"foo/index.ts"⟩, none⟩ = .ok other ∧
          specifier ≠ other := by
  rcases specifier_of_entry fooUpdates_wellFormed getModule?_foo with ⟨down, alike⟩
  have down := down (by decide +kernel)
  have one := alike ⟨"a", .variable, ⟨"foo.ts"⟩, none⟩ (by simp [fooSymbols])
    ⟨"b", .variable, ⟨"foo/index.ts"⟩, none⟩ (by simp [fooSymbols]) (down _ (by simp [fooSymbols]))
    (down _ (by simp [fooSymbols]))
  constructor
  · have left : resolveModule ⟨"x.ts"⟩ ⟨"a", .variable, ⟨"foo.ts"⟩, none⟩ = .ok "./foo" := by
      decide +kernel
    have right : resolveModule ⟨"x.ts"⟩ ⟨"b", .variable, ⟨"foo/index.ts"⟩, none⟩ = .ok "./foo" := by
      decide +kernel
    exact ⟨_, _, left, right, (one _ _ _ left right).1 (by decide +kernel)⟩
  · have left : resolveModule ⟨"foo/x.ts"⟩ ⟨"a", .variable, ⟨"foo.ts"⟩, none⟩ = .ok "../foo" := by
      decide +kernel
    have right : resolveModule ⟨"foo/x.ts"⟩ ⟨"b", .variable, ⟨"foo/index.ts"⟩, none⟩ = .ok "." := by
      decide +kernel
    refine ⟨_, _, left, right, fun same => ?_⟩
    exact absurd ((one _ _ _ left right).2 same) (by decide +kernel)

/-- From the directory `foo` the three symbols of the entry `foo` are imported by three specifiers. -/
theorem specifiers_of_entry_differ :
    (∀ event ∈ fooUpdates, event.1.WellFormed) ∧
      ((idle (.new looseWorkspace)).through fooUpdates).indexer.index.getModule? "foo" =
        some [⟨"a", .variable, ⟨"foo.ts"⟩, none⟩, ⟨"b", .variable, ⟨"foo/index.ts"⟩, none⟩,
          ⟨"c", .variable, ⟨"types.d.ts"⟩, some "foo"⟩] ∧
      resolveModule ⟨"foo/x.ts"⟩ ⟨"a", .variable, ⟨"foo.ts"⟩, none⟩ = .ok "../foo" ∧
      resolveModule ⟨"foo/x.ts"⟩ ⟨"b", .variable, ⟨"foo/index.ts"⟩, none⟩ = .ok "." ∧
      resolveModule ⟨"foo/x.ts"⟩ ⟨"c", .variable, ⟨"types.d.ts"⟩, some "foo"⟩ = .ok "foo" :=
  ⟨fooUpdates_wellFormed, getModule?_foo, by decide +kernel, by decide +kernel, by decide +kernel⟩

end Concurrent

end AutoImport
