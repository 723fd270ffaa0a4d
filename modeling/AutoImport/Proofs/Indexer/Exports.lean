import AutoImport.Proofs.Indexer.FullScan
import AutoImport.Proofs.Indexer.Reread

/-!
# The exports of a file that the index keeps

A name that a file exports is found again, and it is listed in a module. But a file keeps only the first
export of each name, so of a name that it exports into several modules all but one are missing.
-/

namespace AutoImport

namespace SymbolIndex

theorem mem_firstOfName {seen : List String} {symbols : List ExportedSymbol}
    {symbol : ExportedSymbol} :
    symbol ∈ attributed.firstOfName seen symbols ↔
      symbol.name ∉ seen ∧ symbols.find? (fun other => other.name == symbol.name) = some symbol := by
  induction symbols generalizing seen with
  | nil => simp [attributed.firstOfName]
  | cons first symbols ih =>
      rw [attributed.firstOfName, List.find?_cons]
      by_cases known : first.name ∈ seen
      · rw [if_pos (by simpa using known), ih]
        refine and_congr_right fun fresh => ?_
        have apart : (first.name == symbol.name) = false := by
          rw [beq_eq_false_iff_ne]
          exact fun same => fresh (same ▸ known)
        rw [apart]
      · rw [if_neg (by simpa using known), List.mem_cons, ih]
        cases same : first.name == symbol.name with
        | true =>
            have names : first.name = symbol.name := by simpa using same
            simp only [List.mem_cons, ← names, not_true_eq_false, false_and, or_false,
              Option.some.injEq, known, not_false_eq_true, true_and]
            exact eq_comm
        | false =>
            have names : symbol.name ≠ first.name := fun names => by simp [names] at same
            have other : symbol ≠ first := fun itself => names (congrArg _ itself)
            simp [names, other]

/-- A file contributes of each name the symbol that its first export of that name is. -/
theorem mem_attributed_symbolOf {path : Path} {package? : Option String} {exports : List Source.Export}
    {symbol : ExportedSymbol} :
    symbol ∈ attributed path (exports.map (Indexer.symbolOf path package?)) ↔
      ∃ first, exports.find? (fun other => other.name == symbol.name) = some first ∧
        Indexer.symbolOf path package? first = symbol := by
  rw [attributed, List.mem_map]
  constructor
  · rintro ⟨given, member, rfl⟩
    have found := (mem_firstOfName.mp member).2
    rw [List.find?_map, Option.map_eq_some_iff] at found
    rcases found with ⟨first, firstFound, rfl⟩
    exact ⟨first, firstFound, rfl⟩
  · rintro ⟨first, found, rfl⟩
    refine ⟨Indexer.symbolOf path package? first, mem_firstOfName.mpr ⟨List.not_mem_nil, ?_⟩, rfl⟩
    rw [List.find?_map, Option.map_eq_some_iff]
    exact ⟨first, found, rfl⟩

/-! ## Answers about one file -/

section Answers

variable {index : SymbolIndex} (history : index.HasHistory)
include history

theorem HasHistory.mem_symbols_of_file {path : Path} {symbol : ExportedSymbol} :
    symbol ∈ FileContents.symbols index.symbolsInFile ∧ symbol.path.Same path ↔
      symbol ∈ index.symbolsInFile path := by
  have keeps := history.keeps
  rw [← keeps.mem_symbols, mem_symbols_iff keeps.filed]
  constructor
  · rintro ⟨member, same⟩
    rwa [← symbolsInFile_congr index same]
  · intro member
    have same : symbol.path.Same path := by
      rw [symbolsInFile_eq_filter keeps.filed, List.mem_filter] at member
      exact ExportedSymbol.isDeclaredIn_iff.mp member.2
    exact ⟨by rwa [symbolsInFile_congr index same], same⟩

theorem HasHistory.mem_getSymbols_exact {path : Path} {name : String} {symbol : ExportedSymbol}
    (fromStart : Bool) :
    symbol ∈ index.getSymbols name fromStart .exact ∧ symbol.path.Same path ↔
      symbol ∈ index.symbolsInFile path ∧ symbol.name = name := by
  rw [(history.keeps.answersFrom.getSymbols name fromStart .exact).mem_iff,
    ← history.mem_symbols_of_file]
  exact and_right_comm

theorem HasHistory.mem_getModule {path : Path} {specifier : String} {symbol : ExportedSymbol} :
    (∃ symbols, index.getModule? specifier = some symbols ∧ symbol ∈ symbols) ∧
        symbol.path.Same path ↔
      symbol ∈ index.symbolsInFile path ∧ symbol.moduleKey = specifier := by
  have listed : (∃ symbols, index.getModule? specifier = some symbols ∧ symbol ∈ symbols) ↔
      symbol ∈ (index.getModule? specifier).getD [] := by
    cases index.getModule? specifier <;> simp
  rw [listed, (history.keeps.answersFrom.getModule specifier).mem_iff, ← history.mem_symbols_of_file]
  exact and_right_comm

end Answers

/-- What an index answers about the exports of a file: a name that the file exports is found as the first
export of that name, which is listed in its module. Other exports of the name are listed in their modules
only where these are the same. -/
def KeepsExports (index : SymbolIndex) (path : Path) (package? : Option String)
    (exports : List Source.Export) : Prop :=
  ∀ found ∈ exports, ∃ first,
    exports.find? (fun other => other.name == found.name) = some first ∧
    let symbol := Indexer.symbolOf path package? first
    let module := (Indexer.symbolOf path package? found).moduleKey
    (∀ fromStart other, other ∈ index.getSymbols found.name fromStart .exact ∧ other.path.Same path ↔
      other = symbol) ∧
    (∃ symbols, index.getModule? symbol.moduleKey = some symbols ∧ symbol ∈ symbols) ∧
    ((∃ symbols, index.getModule? module = some symbols ∧
      ∃ other ∈ symbols, other.name = found.name ∧ other.path.Same path) ↔ symbol.moduleKey = module)

theorem HasHistory.keepsExports {index : SymbolIndex} (history : index.HasHistory) {path : Path}
    {package? : Option String} {exports : List Source.Export}
    (holds : index.symbolsInFile path =
      attributed path (exports.map (Indexer.symbolOf path package?))) :
    index.KeepsExports path package? exports := by
  intro found member
  have present : (exports.find? fun other => other.name == found.name).isSome :=
    List.find?_isSome.mpr ⟨found, member, beq_self_eq_true _⟩
  rcases Option.isSome_iff_exists.mp present with ⟨first, isFirst⟩
  have sameName : first.name = found.name := by simpa using List.find?_some isFirst
  have itself : ∀ other, other ∈ index.symbolsInFile path ∧ other.name = found.name ↔
      other = Indexer.symbolOf path package? first := by
    intro other
    rw [holds, mem_attributed_symbolOf]
    constructor
    · rintro ⟨⟨own, ownFirst, rfl⟩, named⟩
      rw [named, isFirst] at ownFirst
      rw [Option.some.inj ownFirst]
    · rintro rfl
      refine ⟨⟨first, ?_, rfl⟩, sameName⟩
      rw [show (Indexer.symbolOf path package? first).name = found.name from sameName]
      exact isFirst
  have kept := ((itself _).mpr rfl).1
  refine ⟨first, isFirst, ?_, ?_, ?_⟩
  · intro fromStart other
    rw [history.mem_getSymbols_exact, itself]
  · exact (history.mem_getModule.mpr ⟨kept, rfl⟩).1
  · constructor
    · rintro ⟨symbols, listed, other, inside, named, same⟩
      rcases history.mem_getModule.mp ⟨⟨symbols, listed, inside⟩, same⟩ with ⟨here, key⟩
      rw [(itself other).mp ⟨here, named⟩] at key
      exact key
    · intro key
      rcases history.mem_getModule.mpr ⟨kept, key⟩ with ⟨⟨symbols, listed, inside⟩, same⟩
      exact ⟨symbols, listed, _, inside, sameName, same⟩

end SymbolIndex

namespace Indexer

/-- An index after a file was committed, alone, in an update or in a full scan, with the specifier of the
package that the file was then found to belong to. -/
inductive CommitsFile (tree : FileTree) (workspace : Workspace) (path : Path) :
    Option String → SymbolIndex → Prop where
  | alone {indexer : Indexer} (history : indexer.index.HasHistory)
      (own : indexer.workspace = workspace) :
      CommitsFile tree workspace path (indexer.packages.specifierFor tree workspace.rootPath path).1
        (indexer.commit tree path).2.index
  | byUpdate {indexer : Indexer} {spelled : Path} (history : indexer.index.HasHistory)
      (own : indexer.workspace = workspace) (seen : workspace.relativize? tree spelled = some path)
      (isFile : tree.isFile (workspace.rootPath.join path) = true)
      (accepted : workspace.accepts tree path = true) :
      CommitsFile tree workspace path (indexer.packages.specifierFor tree workspace.rootPath path).1
        (indexer.scanFile tree spelled).2.index
  | byScan {before after : Concurrent} {afresh : Bool} {place : Nat} {report : ScanReport}
      (reached : before.Reached workspace)
      (completes : Concurrent.CompletesScan tree afresh place report before after)
      (found : path ∈ workspace.collect tree) :
      CommitsFile tree workspace path (PackageCache.currentSpecifier? tree workspace.rootPath path)
        after.indexer.index

/-- Of a file that reads, each exported name is found after the file was committed, and the first export of
the name is listed in its module. Another export of the name is listed in its own module just when that is
the module of the first. -/
theorem CommitsFile.exports_kept {tree : FileTree} (wellFormed : tree.WellFormed)
    {workspace : Workspace} {path : Path} {package? : Option String} {index : SymbolIndex}
    (commits : CommitsFile tree workspace path package? index) {exports : List Source.Export}
    (read : exportsOfFile tree workspace path = .ok exports) :
    index.KeepsExports path package? exports := by
  cases commits with
  | alone history own =>
      subst own
      apply (hasHistory_commit history tree path).keepsExports
      rw [symbolsInFile_commit_eq history, if_pos (Path.Same.refl path), symbolsRead_of_ok read]
  | byUpdate history own seen isFile accepted =>
      subst own
      have updated := scanFile_updated history seen
      apply updated.history.keepsExports
      rw [updated.symbolsInFile, if_pos (Path.Same.refl path), symbolsUpdated, isFile, accepted,
        Bool.and_self, if_pos rfl, symbolsRead_of_ok read]
  | byScan reached completes found =>
      rcases completes.completed wellFormed reached with ⟨completed, -⟩
      rcases Concurrent.index_after_full_scan wellFormed reached completes reached completes with
        ⟨-, holds, -⟩
      refine completed.history.keepsExports ((holds path found exports read).trans ?_)
      exact (SymbolIndex.attributed_eq_firstOfEachName _ _).symm

/-! ## A name in two quoted modules -/

/-- A file that declares the same name in two quoted modules. -/
def quotedModules : FileTree :=
  ⟨[(["w"], .directory),
    (["w", "types.d.ts"], .file (.text
      "declare module \"a\" \x7b export let x \x7d\ndeclare module \"b\" \x7b export let x \x7d\n"))]⟩

theorem exportsOfFile_quotedModules :
    exportsOfFile quotedModules Concurrent.looseWorkspace ⟨"types.d.ts"⟩ =
      .ok [⟨"x", .variable, some "a"⟩, ⟨"x", .variable, some "b"⟩] := by
  decide +kernel

/-- After a full scan, only the module of the first declaration lists the name. -/
theorem exports_kept_of_quotedModules :
    ∃ report after, Concurrent.CompletesScan quotedModules true 0 report
        (.idle (.new Concurrent.looseWorkspace)) after ∧
      (∃ symbols, after.indexer.index.getModule? "a" = some symbols ∧
        ⟨"x", .variable, ⟨"types.d.ts"⟩, some "a"⟩ ∈ symbols) ∧
      ¬∃ symbols, after.indexer.index.getModule? "b" = some symbols ∧
        ∃ other ∈ symbols, other.name = "x" ∧ other.path.Same ⟨"types.d.ts"⟩ := by
  have wellFormed : quotedModules.WellFormed := by decide +kernel
  have finds : Concurrent.looseWorkspace.Finds quotedModules ["types.d.ts"] :=
    ⟨⟨_, rfl⟩, by decide +kernel, by decide +kernel⟩
  have found := finds.mem_collect wellFormed
  rw [Path.ofNames_singleton] at found
  rcases Concurrent.exists_completesScan quotedModules
    (rfl : (Concurrent.idle (.new Concurrent.looseWorkspace)).isBusy = false) true with
    ⟨report, after, completes⟩
  have kept := (CommitsFile.byScan ⟨[], rfl⟩ completes found).exports_kept wellFormed
    exportsOfFile_quotedModules
  refine ⟨report, after, completes, ?_, ?_⟩
  · rcases kept ⟨"x", .variable, some "a"⟩ (by simp) with ⟨first, isFirst, -, listed, -⟩
    obtain rfl : ⟨"x", .variable, some "a"⟩ = first := by simpa using isFirst
    exact listed
  · rcases kept ⟨"x", .variable, some "b"⟩ (by simp) with ⟨first, isFirst, -, -, listed⟩
    obtain rfl : ⟨"x", .variable, some "a"⟩ = first := by simpa using isFirst
    intro lists
    have same := listed.mp lists
    simp [symbolOf, ExportedSymbol.moduleKey] at same

/-- Of two modules of a file that declare the same name, the index does not have the second one. -/
theorem second_module_missing :
    let read := (Indexer.new Concurrent.looseWorkspace).scanFile quotedModules ⟨"types.d.ts"⟩
    exportsOfFile quotedModules Concurrent.looseWorkspace ⟨"types.d.ts"⟩ =
        .ok [⟨"x", .variable, some "a"⟩, ⟨"x", .variable, some "b"⟩] ∧
      read.1 = .indexed 1 ∧
      read.2.index.getModule? "a" = some [⟨"x", .variable, ⟨"types.d.ts"⟩, some "a"⟩] ∧
      read.2.index.getModule? "b" = none := by
  refine ⟨exportsOfFile_quotedModules, ?_, ?_, ?_⟩ <;> decide +kernel

end Indexer

end AutoImport
