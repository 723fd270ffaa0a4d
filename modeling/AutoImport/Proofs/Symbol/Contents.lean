import AutoImport.Proofs.Symbol.Answers
import AutoImport.Proofs.Text.Search
import Mathlib.Data.List.Perm.Basic
import Mathlib.Data.Set.Card
import Mathlib.Tactic.SplitIfs

/-!
# Answers from the contents of files

What was given last for each file determines every answer of an index. `FileContents.ofChanges` keeps
just that, and `SymbolIndex.AnswersFrom` tells the answers that follow from it: lists of sets, each item
once and in an order that leaves nothing open. So neither the order of the changes before nor the order
in which the buckets of a name are gone through can be seen from outside.
-/

namespace AutoImport

open Text

/-- The items of a set, each once and in order. -/
structure Lists {α : Type} (order : α → α → Ordering) (items : List α) (set : Set α) : Prop where
  ordered : items.Pairwise fun left right => order left right = .lt
  mem_iff : ∀ item, item ∈ items ↔ item ∈ set

namespace Lists

variable {α : Type} {order : α → α → Ordering} [Std.TransCmp order] {set : Set α}

theorem unique {left right : List α} (leftLists : Lists order left set)
    (rightLists : Lists order right set) : left = right := by
  apply eq_of_pairwise_lt order leftLists.ordered rightLists.ordered
  intro item
  rw [leftLists.mem_iff, rightLists.mem_iff]

theorem length_eq_ncard {items : List α} (lists : Lists order items set) :
    items.length = set.ncard := by
  classical
  have nodup : items.Nodup := by
    apply lists.ordered.imp
    rintro one other before rfl
    have self : order one one = .eq := Std.ReflCmp.compare_self
    simp [self] at before
  have same : set = (items.toFinset : Set α) := by
    ext item
    simp [lists.mem_iff]
  rw [same, Set.ncard_coe_finset, List.toFinset_card_of_nodup nodup]

end Lists

/-! ## What the files hold -/

/-- The symbols of each file. -/
def FileContents : Type :=
  Path → List ExportedSymbol

namespace FileContents

/-- No symbols in any file. -/
def empty : FileContents :=
  fun _ => []

/-- All symbols of all files. -/
def symbols (contents : FileContents) : Set ExportedSymbol :=
  { symbol | ∃ path, symbol ∈ contents path }

/-- The modules through which symbols are reached. -/
def modules (contents : FileContents) : Set String :=
  ExportedSymbol.moduleKey '' contents.symbols

/-- The files that have symbols, as the symbols spell them. -/
def files (contents : FileContents) : Set Path :=
  { path | ∃ symbol ∈ contents path, symbol.path = path }

/-- Of each name the first symbol, declared in the given file. -/
def firstOfEachName (path : Path) (symbols : List ExportedSymbol) : List ExportedSymbol :=
  (symbols.eraseDupsBy fun left right => left.name == right.name).map fun symbol =>
    { symbol with path := path }

/-- What the files hold after a change. Files are told apart by their components. -/
def after (contents : FileContents) : IndexChange → FileContents
  | .replaceFile path symbols => fun other =>
    if other.Same path then firstOfEachName path symbols else contents other
  | .removeFile path => fun other => if other.Same path then [] else contents other
  | .reset => empty

/-- What was given last for each file. -/
def ofChanges (changes : List IndexChange) : FileContents :=
  changes.foldl after empty

theorem ofChanges_append (changes more : List IndexChange) :
    ofChanges (changes ++ more) = more.foldl after (ofChanges changes) :=
  List.foldl_append

end FileContents

namespace SymbolIndex

theorem firstOfName_eq (seen : List String) (symbols : List ExportedSymbol) :
    attributed.firstOfName seen symbols =
      (symbols.filter fun symbol => !seen.contains symbol.name).eraseDupsBy
        fun left right => left.name == right.name := by
  induction symbols generalizing seen with
  | nil => rfl
  | cons symbol symbols ih =>
      rw [attributed.firstOfName, List.filter_cons]
      by_cases known : seen.contains symbol.name
      · simp only [known, reduceIte, Bool.not_true, Bool.false_eq_true]
        exact ih seen
      · simp only [known, Bool.not_false, reduceIte, Bool.false_eq_true, List.eraseDupsBy_cons,
          List.filter_filter, ih (symbol.name :: seen)]
        congr 2
        apply List.filter_congr
        intro other _
        by_cases same : other.name = symbol.name <;> simp [same]

theorem attributed_eq_firstOfEachName (path : Path) (symbols : List ExportedSymbol) :
    attributed path symbols = FileContents.firstOfEachName path symbols := by
  simp [attributed, FileContents.firstOfEachName, firstOfName_eq]

/-! ## The spelling of a file -/

/-- The symbols of a file spell it as the index does. -/
def SpelledAsFiled (index : SymbolIndex) : Prop :=
  ∀ entry ∈ index.byFile.entries, ∀ symbol ∈ entry.2, symbol.path = entry.1

theorem SpelledAsFiled.removeFile {index : SymbolIndex} (spelled : index.SpelledAsFiled)
    (path : Path) : (index.removeFile path).SpelledAsFiled := by
  intro entry member
  rw [removeFile_byFile] at member
  rcases Buckets.mem_adjustEntries member with kept | ⟨-, emptied, filled⟩ | ⟨-, emptied, filled⟩
  · exact spelled entry kept
  · exact absurd (by simp [emptied]) filled
  · exact absurd (by simp [emptied]) filled

theorem SpelledAsFiled.insert {index : SymbolIndex} (spelled : index.SpelledAsFiled)
    {symbol : ExportedSymbol} (own : ∀ key ∈ index.listFiles, key.Same symbol.path → key = symbol.path) :
    (index.insert symbol).SpelledAsFiled := by
  intro entry member other inside
  have key (same : compare symbol.path entry.1 = .eq) : entry.1 = symbol.path := by
    rcases Buckets.mem_keys_adjust (List.mem_map_of_mem member) with old | new
    · exact own entry.1 old (Path.compare_eq_iff_same.mp same).symm
    · exact new
  rcases Buckets.mem_adjustEntries member with kept | ⟨same, changed, -⟩ | ⟨same, created, -⟩
  · exact spelled entry kept other inside
  · rw [changed] at inside
    rw [key same]
    rcases List.mem_append.mp inside with old | new
    · change other ∈ index.byFile.find symbol.path at old
      rcases Buckets.find_eq_nil_or_mem index.byFile symbol.path with empty | ⟨bucket, filed, alike, found⟩
      · simp [empty] at old
      · rw [← found] at old
        rw [spelled bucket filed other old]
        apply own bucket.1 (List.mem_map_of_mem filed)
        exact (Path.compare_eq_iff_same.mp alike).symm
    · rw [List.mem_singleton.mp new]
  · rw [created] at inside
    rw [key same, List.mem_singleton.mp inside]

theorem SpelledAsFiled.foldl_insert {path : Path} {symbols : List ExportedSymbol}
    {index : SymbolIndex} (spelled : index.SpelledAsFiled)
    (declared : ∀ symbol ∈ symbols, symbol.path = path)
    (own : ∀ key ∈ index.listFiles, key.Same path → key = path) :
    (symbols.foldl SymbolIndex.insert index).SpelledAsFiled := by
  induction symbols generalizing index with
  | nil => exact spelled
  | cons symbol symbols ih =>
      have here : symbol.path = path := declared symbol List.mem_cons_self
      apply ih
      · apply spelled.insert
        rwa [here]
      · exact fun later member => declared later (List.mem_cons_of_mem _ member)
      · intro key member same
        rcases Buckets.mem_keys_adjust member with old | new
        · exact own key old same
        · exact new.trans here

theorem SpelledAsFiled.replaceFile {index : SymbolIndex} (spelled : index.SpelledAsFiled)
    (filed : index.Filed) (path : Path) (symbols : List ExportedSymbol) :
    (index.replaceFile path symbols).SpelledAsFiled := by
  apply (spelled.removeFile path).foldl_insert fun symbol member => attributed_path member
  intro key member same
  have gone := symbolsInFile_removeFile filed path key
  rw [if_pos same] at gone
  exact absurd gone (symbolsInFile_ne_nil (filed.removeFile path) member)

/-! ## The contents of an index -/

/-- An index that is well kept and holds the given symbols of each file. -/
structure Keeps (index : SymbolIndex) (contents : FileContents) : Prop where
  filed : index.Filed
  spelled : index.SpelledAsFiled
  symbolsInFile : ∀ path, index.symbolsInFile path = contents path

theorem empty_keeps : empty.Keeps .empty :=
  ⟨empty_filed, by simp [SpelledAsFiled, empty, Buckets.empty], fun _ => rfl⟩

theorem Keeps.apply {index : SymbolIndex} {contents : FileContents} (keeps : index.Keeps contents)
    (change : IndexChange) : (index.apply change).Keeps (contents.after change) := by
  rcases keeps with ⟨filed, spelled, same⟩
  cases change with
  | replaceFile path symbols =>
      refine ⟨filed.replaceFile path symbols, spelled.replaceFile filed path symbols, ?_⟩
      intro other
      rw [SymbolIndex.apply, symbolsInFile_replaceFile filed, attributed_eq_firstOfEachName, same]
      rfl
  | removeFile path =>
      refine ⟨filed.removeFile path, spelled.removeFile path, ?_⟩
      intro other
      rw [SymbolIndex.apply, symbolsInFile_removeFile filed, same]
      rfl
  | reset => exact empty_keeps

theorem Keeps.foldl_apply {index : SymbolIndex} {contents : FileContents}
    (keeps : index.Keeps contents) (changes : List IndexChange) :
    (changes.foldl SymbolIndex.apply index).Keeps (changes.foldl FileContents.after contents) := by
  induction changes generalizing index contents with
  | nil => exact keeps
  | cons change changes ih => exact ih (keeps.apply change)

theorem afterChanges_keeps (changes : List IndexChange) :
    (afterChanges changes).Keeps (.ofChanges changes) :=
  empty_keeps.foldl_apply changes

/-! ## Answers -/

end SymbolIndex

/-- What a query names: exactly itself, or what its lower case is contained in or begins. -/
def MatchMode.Names (mode : MatchMode) (fromStart : Bool) (query name : String) : Prop :=
  match mode with
  | .exact => name = query
  | .anyCase =>
    if fromStart then lowercase query.toList <+: lowercase name.toList
    else lowercase query.toList <:+: lowercase name.toList

theorem MatchMode.fits_iff_names {mode : MatchMode} {fromStart : Bool} {query name : String} :
    mode.fits fromStart query name = true ↔ mode.Names fromStart query name := by
  cases mode with
  | exact => simp [fits, Names]
  | anyCase =>
      simp only [fits, Names]
      split
      · rw [startsWith_iff]
        exact exists_congr fun rest => eq_comm
      · rw [contains_iff]
        exact exists_congr fun before => exists_congr fun after => eq_comm

/-- The order in which the modules that a query names are listed. -/
def compareModulesFor (query : String) : String → String → Ordering :=
  compareLex (compareOn fun key => key != query) compare

instance (query : String) : Std.TransCmp (compareModulesFor query) := by
  unfold compareModulesFor
  infer_instance

namespace SymbolIndex

/-- All answers of an index, as they follow from the contents of the files. -/
structure AnswersFrom (index : SymbolIndex) (contents : FileContents) : Prop where
  symbolsInFile : ∀ path, index.symbolsInFile path = contents path
  getSymbols : ∀ query fromStart mode,
    Lists (ExportedSymbol.compareFor query) (index.getSymbols query fromStart mode)
      { symbol ∈ contents.symbols | mode.Names fromStart query symbol.name }
  getModules : ∀ query fromStart mode,
    Lists (compareModulesFor query) (index.getModules query fromStart mode)
      { key ∈ contents.modules | mode.Names fromStart query key }
  /-- A module without symbols is none. -/
  getModule_ne : ∀ specifier, index.getModule? specifier ≠ some []
  getModule : ∀ specifier,
    Lists ExportedSymbol.compareByName ((index.getModule? specifier).getD [])
      { symbol ∈ contents.symbols | symbol.moduleKey = specifier }
  listFiles : Lists compare index.listFiles contents.files
  stats : index.stats = ⟨contents.symbols.ncard, contents.modules.ncard, contents.files.ncard⟩
  isEmpty : index.isEmpty = true ↔ contents.symbols = ∅
  snapshotSymbols : Lists ExportedSymbol.compareInFull index.snapshot.symbols contents.symbols
  snapshotModules : Lists compare index.snapshot.modules contents.modules

/-- Indexes that answer from the same contents answer alike. -/
theorem AnswersFrom.answersAs {left right : SymbolIndex} {contents : FileContents}
    (leftAnswers : left.AnswersFrom contents) (rightAnswers : right.AnswersFrom contents) :
    left.AnswersAs right where
  snapshot := by
    rw [IndexSnapshot.mk.injEq]
    exact ⟨leftAnswers.snapshotSymbols.unique rightAnswers.snapshotSymbols,
      leftAnswers.snapshotModules.unique rightAnswers.snapshotModules⟩
  listFiles := leftAnswers.listFiles.unique rightAnswers.listFiles
  stats := leftAnswers.stats.trans rightAnswers.stats.symm
  symbolsInFile path := (leftAnswers.symbolsInFile path).trans (rightAnswers.symbolsInFile path).symm
  getSymbols query fromStart mode :=
    (leftAnswers.getSymbols query fromStart mode).unique (rightAnswers.getSymbols query fromStart mode)
  getModules query fromStart mode :=
    (leftAnswers.getModules query fromStart mode).unique (rightAnswers.getModules query fromStart mode)
  getModule? specifier := by
    have same := (leftAnswers.getModule specifier).unique (rightAnswers.getModule specifier)
    have leftFilled := leftAnswers.getModule_ne specifier
    have rightFilled := rightAnswers.getModule_ne specifier
    cases foundLeft : left.getModule? specifier <;> cases foundRight : right.getModule? specifier <;>
      simp_all

/-- Items that an order tells apart are listed by sorting. -/
theorem mergeSort_lists {α : Type} {order : α → α → Ordering} [Std.TransCmp order] {items : List α}
    (distinct : items.Pairwise fun one other => order one other ≠ .eq) {set : Set α}
    (mem_iff : ∀ item, item ∈ items ↔ item ∈ set) :
    Lists order (items.mergeSort fun one other => order one other != .gt) set := by
  refine ⟨?_, fun item => List.mem_mergeSort.trans (mem_iff item)⟩
  have apart : (items.mergeSort fun one other => order one other != .gt).Pairwise
      fun one other => order one other ≠ .eq :=
    (List.mergeSort_perm items _).symm.pairwise distinct
      fun {_ _} apart equal => apart (Std.OrientedCmp.eq_symm equal)
  apply ((pairwise_mergeSort_of_transCmp order items).and apart).imp
  rintro one other ⟨notAfter, different⟩
  cases compared : order one other with
  | lt => rfl
  | eq => exact absurd compared different
  | gt => simp [compared] at notAfter

section Keeps

variable {index : SymbolIndex} {contents : FileContents} (keeps : index.Keeps contents)
include keeps

theorem Keeps.mem_symbols (symbol : ExportedSymbol) :
    symbol ∈ index.byName.symbols ↔ symbol ∈ contents.symbols := by
  rw [mem_symbols_iff keeps.filed]
  constructor
  · intro member
    exact ⟨symbol.path, by rwa [← keeps.symbolsInFile]⟩
  · rintro ⟨path, member⟩
    rw [← keeps.symbolsInFile, symbolsInFile_eq_filter keeps.filed, List.mem_filter] at member
    rw [← mem_symbols_iff keeps.filed]
    exact keeps.filed.sameByFile.subset member.1

theorem Keeps.lists_symbols :
    Lists ExportedSymbol.compareInFull index.snapshot.symbols contents.symbols := by
  rw [snapshot_eq]
  apply mergeSort_lists
  · exact keeps.filed.distinct.imp ExportedSymbol.compareInFull_ne_eq
  · exact keeps.mem_symbols

theorem Keeps.lists_getSymbols (query : String) (fromStart : Bool) (mode : MatchMode) :
    Lists (ExportedSymbol.compareFor query) (index.getSymbols query fromStart mode)
      { symbol ∈ contents.symbols | mode.Names fromStart query symbol.name } := by
  rw [getSymbols_eq keeps.filed]
  apply mergeSort_lists
  · exact (keeps.filed.distinct.filter _).imp ExportedSymbol.compareFor_ne_eq
  · intro symbol
    rw [List.mem_filter, keeps.mem_symbols, MatchMode.fits_iff_names]
    rfl

theorem Keeps.lists_modules : Lists compare index.byModule.keys contents.modules := by
  refine ⟨List.pairwise_map.mpr keeps.filed.byModule.ordered, fun key => ?_⟩
  have filed := Buckets.mem_keys_iff keeps.filed.byModule key
  simp only [Std.LawfulEqOrd.compare_eq_iff_eq, keeps.filed.sameByModule.mem_iff,
    keeps.mem_symbols] at filed
  simpa [FileContents.modules] using filed

theorem Keeps.lists_getModules (query : String) (fromStart : Bool) (mode : MatchMode) :
    Lists (compareModulesFor query) (index.getModules query fromStart mode)
      { key ∈ contents.modules | mode.Names fromStart query key } := by
  have found := keeps.lists_modules.ordered.filter (mode.fits fromStart query)
  constructor
  · refine List.pairwise_append.mpr ⟨?_, ?_, ?_⟩
    · apply (found.filter _).imp_of_mem
      intro left right leftMember rightMember before
      have leftSame := (List.mem_filter.mp leftMember).2
      have rightSame := (List.mem_filter.mp rightMember).2
      simp_all [compareModulesFor, compareLex, compareOn]
    · apply (found.filter _).imp_of_mem
      intro left right leftMember rightMember before
      have leftOther := (List.mem_filter.mp leftMember).2
      have rightOther := (List.mem_filter.mp rightMember).2
      rw [compareModulesFor, compareLex, compareOn, leftOther, rightOther, before]
      rfl
    · intro left leftMember right rightMember
      have leftSame := (List.mem_filter.mp leftMember).2
      have rightOther := (List.mem_filter.mp rightMember).2
      rw [compareModulesFor, compareLex, compareOn, bne, leftSame, rightOther]
      rfl
  · intro key
    simp only [getModules, List.mem_append, List.mem_filter, keeps.lists_modules.mem_iff,
      MatchMode.fits_iff_names]
    by_cases same : key = query <;> simp [same]

theorem Keeps.lists_getModule (specifier : String) :
    Lists ExportedSymbol.compareByName ((index.getModule? specifier).getD [])
      { symbol ∈ contents.symbols | symbol.moduleKey = specifier } := by
  have bucket : (index.getModule? specifier).getD [] = index.byModule.find specifier := by
    rw [getModule?]
    split <;> simp_all
  rw [bucket]
  refine ⟨byModule_find_sorted keeps.filed specifier, fun symbol => ?_⟩
  rw [keeps.filed.byModule.find_eq_filter, List.mem_filter, keeps.filed.sameByModule.mem_iff,
    keeps.mem_symbols]
  simp

theorem Keeps.lists_files : Lists compare index.listFiles contents.files := by
  refine ⟨List.pairwise_map.mpr keeps.filed.byFile.ordered, fun path => ?_⟩
  constructor
  · intro member
    obtain ⟨entry, filed, rfl⟩ := List.mem_map.mp member
    obtain ⟨symbol, inside⟩ := List.exists_mem_of_ne_nil _ (keeps.filed.byFile.nonempty entry filed)
    refine ⟨symbol, ?_, keeps.spelled entry filed symbol inside⟩
    rw [← keeps.symbolsInFile, symbolsInFile_eq_filter keeps.filed, List.mem_filter]
    refine ⟨Buckets.mem_symbols.mpr ⟨entry, filed, inside⟩, ?_⟩
    rw [ExportedSymbol.isDeclaredIn_iff, keeps.spelled entry filed symbol inside]
    exact Path.Same.refl _
  · rintro ⟨symbol, member, rfl⟩
    rw [← keeps.symbolsInFile, symbolsInFile_eq_filter keeps.filed, List.mem_filter] at member
    obtain ⟨entry, filed, inside⟩ := Buckets.mem_symbols.mp member.1
    rw [keeps.spelled entry filed symbol inside]
    exact List.mem_map_of_mem filed

/-- A well-kept index answers from what it holds of each file. -/
theorem Keeps.answersFrom : index.AnswersFrom contents where
  symbolsInFile := keeps.symbolsInFile
  getSymbols := keeps.lists_getSymbols
  getModules := keeps.lists_getModules
  getModule_ne specifier := by
    rw [getModule?]
    split <;> simp_all
  getModule := keeps.lists_getModule
  listFiles := keeps.lists_files
  stats := by
    have counted : index.snapshot.symbols.length = index.symbolCount := by
      rw [snapshot_eq, List.length_mergeSort, keeps.filed.counted]
    rw [SymbolIndex.stats, ← counted, keeps.lists_symbols.length_eq_ncard,
      keeps.lists_modules.length_eq_ncard, ← keeps.lists_files.length_eq_ncard]
    rfl
  isEmpty := by
    rw [SymbolIndex.isEmpty, keeps.filed.counted, beq_iff_eq, List.length_eq_zero_iff,
      List.eq_nil_iff_forall_not_mem, Set.eq_empty_iff_forall_notMem]
    simp only [keeps.mem_symbols]
  snapshotSymbols := keeps.lists_symbols
  snapshotModules := by
    rw [snapshot_eq]
    exact keeps.lists_modules

end Keeps

/-! ## What leaves no trace -/

/-- The order of the buckets of names and of files cannot be seen from the answers. -/
structure HidesOrder (index : SymbolIndex) : Prop where
  getSymbols : ∀ shuffled : Buckets String, shuffled.entries.Perm index.byName.entries →
    ∀ query fromStart mode, { index with byName := shuffled }.getSymbols query fromStart mode =
      index.getSymbols query fromStart mode
  snapshot : ∀ shuffled : Buckets String, shuffled.entries.Perm index.byName.entries →
    { index with byName := shuffled }.snapshot = index.snapshot
  listFiles : ∀ files : List Path, files.Perm index.byFile.keys →
    files.mergeSort (fun left right => compare left right != .gt) = index.listFiles

theorem Filed.hidesOrder {index : SymbolIndex} (filed : index.Filed) : index.HidesOrder where
  getSymbols shuffled perm query fromStart mode := by
    rw [getSymbols_eq_mergeSort, getSymbols_eq_mergeSort]
    apply mergeSort_eq_of_perm
    · exact (perm.filter _).flatMap_right _
    · rw [Buckets.flatMap_filter_keys filed.byName]
      exact (filed.distinct.filter _).imp ExportedSymbol.compareFor_ne_eq
  snapshot shuffled perm := by
    rw [snapshot_eq, snapshot_eq]
    congr 1
    apply mergeSort_eq_of_perm
    · exact perm.flatMap_right _
    · exact filed.distinct.imp ExportedSymbol.compareInFull_ne_eq
  listFiles files perm := by
    have ordered : index.byFile.keys.Pairwise fun left right => compare left right = .lt :=
      List.pairwise_map.mpr filed.byFile.ordered
    rw [mergeSort_eq_of_perm perm (ordered.imp fun before => by simp [before])]
    apply List.mergeSort_of_pairwise
    exact ordered.imp fun before => by simp [before]

end SymbolIndex

/-- Files that differ can be replaced in any order. -/
theorem FileContents.foldl_after_perm {files others : List (Path × List ExportedSymbol)}
    (perm : files.Perm others) (apart : files.Pairwise fun left right => ¬left.1.Same right.1)
    (contents : FileContents) :
    (files.map fun file => IndexChange.replaceFile file.1 file.2).foldl after contents =
      (others.map fun file => IndexChange.replaceFile file.1 file.2).foldl after contents := by
  rw [List.foldl_map, List.foldl_map]
  apply perm.foldl_eq'
  intro left leftMember right rightMember contents
  funext path
  by_cases equal : left = right
  · rw [equal]
  · have symm : Std.Symm fun left right : Path × List ExportedSymbol => ¬left.1.Same right.1 :=
      ⟨fun _ _ apart same => apart same.symm⟩
    have different := apart.forall leftMember rightMember equal
    simp only [after]
    split_ifs with inRight inLeft
    · exact absurd (inLeft.symm.trans inRight) different
    · rfl
    · rfl
    · rfl

namespace SymbolIndex

/-- After any history of changes the answers of an index follow from what was given last for each file,
whatever the order of its buckets. Histories that give the same for each file lead to the same answers,
and so does the replacement of different files in any order. -/
theorem afterChanges_answersFrom (changes : List IndexChange) :
    (afterChanges changes).AnswersFrom (.ofChanges changes) ∧ (afterChanges changes).HidesOrder ∧
      (∀ others, FileContents.ofChanges others = .ofChanges changes →
        (afterChanges others).AnswersAs (afterChanges changes)) ∧
      ∀ files others : List (Path × List ExportedSymbol), files.Perm others →
        (files.Pairwise fun left right => ¬left.1.Same right.1) →
        (afterChanges (changes ++ files.map fun file => .replaceFile file.1 file.2)).AnswersAs
          (afterChanges (changes ++ others.map fun file => .replaceFile file.1 file.2)) := by
  have sameAnswers (left right : List IndexChange)
      (same : FileContents.ofChanges left = .ofChanges right) :
      (afterChanges left).AnswersAs (afterChanges right) := by
    apply AnswersFrom.answersAs (afterChanges_keeps left).answersFrom
    rw [same]
    exact (afterChanges_keeps right).answersFrom
  refine ⟨(afterChanges_keeps changes).answersFrom, (afterChanges_keeps changes).filed.hidesOrder, ?_, ?_⟩
  · intro others same
    exact sameAnswers others changes same
  · intro files others perm apart
    apply sameAnswers
    rw [FileContents.ofChanges_append, FileContents.ofChanges_append]
    exact FileContents.foldl_after_perm perm apart _

end SymbolIndex

end AutoImport
