import AutoImport.Proofs.Path.Components
import AutoImport.Proofs.Symbol.History

/-!
# What an index answers

The answers of an index, told by the symbols that it files: sorted lists whose orders tell all symbols
apart, and the symbols of each file after a change of the index.
-/

namespace AutoImport

/-! ## Lists in order -/

/-- A strictly ordered list is determined by its members. -/
theorem eq_of_pairwise_lt {α : Type} (order : α → α → Ordering) [Std.TransCmp order]
    {left right : List α} (leftOrdered : left.Pairwise fun one other => order one other = .lt)
    (rightOrdered : right.Pairwise fun one other => order one other = .lt)
    (same : ∀ item, item ∈ left ↔ item ∈ right) : left = right := by
  have nodup {items : List α} (ordered : items.Pairwise fun one other => order one other = .lt) :
      items.Nodup := by
    refine ordered.imp fun {one other} before equal => ?_
    have self : order other other = .eq := Std.ReflCmp.compare_self
    rw [equal, self] at before
    simp at before
  have perm := (List.perm_ext_iff_of_nodup (nodup leftOrdered) (nodup rightOrdered)).mpr same
  refine List.Perm.eq_of_pairwise ?_ leftOrdered rightOrdered perm
  intro one other _ _ before after
  rw [Std.OrientedCmp.gt_of_lt after] at before
  simp at before

namespace Path

/-- Whether a path is spelled in the plainest way. -/
def IsPlain (path : Path) : Prop :=
  ofComponents path.components = path

theorem ofNames_isPlain {names : List String} (named : ∀ name ∈ names, Component.IsEntryName name) :
    (ofNames names).IsPlain := by
  rw [IsPlain, components_ofNames named]
  rfl

theorem IsPlain.eq_of_same {left right : Path} (leftPlain : left.IsPlain) (rightPlain : right.IsPlain)
    (same : left.Same right) : left = right := by
  rw [← leftPlain, ← rightPlain, show left.components = right.components from same]

end Path

namespace Buckets

variable {Key : Type} [Ord Key] {keyOf : ExportedSymbol → Key}

/-- The symbols under the keys that satisfy a test. -/
theorem flatMap_filter_keys [Std.LawfulEqOrd Key] {buckets : Buckets Key}
    (filing : buckets.FiledBy keyOf) (test : Key → Bool) :
    (buckets.entries.filter fun entry => test entry.1).flatMap Prod.snd =
      buckets.symbols.filter fun symbol => test (keyOf symbol) := by
  obtain ⟨entries⟩ := buckets
  induction entries with
  | nil => rfl
  | cons entry entries ih =>
      have own : entry.2.filter (fun symbol => test (keyOf symbol)) =
          if test entry.1 then entry.2 else [] := by
        have keys : ∀ symbol ∈ entry.2, keyOf symbol = entry.1 := fun symbol member =>
          Std.LawfulEqOrd.eq_of_compare (filing.filed entry List.mem_cons_self symbol member)
        split
        · rename_i passes
          exact List.filter_eq_self.mpr fun symbol member => by rw [keys symbol member, passes]
        · rename_i fails
          exact List.filter_eq_nil_iff.mpr fun symbol member => by rwa [keys symbol member]
      have rest := ih filing.tail
      change _ = (entry.2 ++ entries.flatMap Prod.snd).filter _
      rw [List.filter_append, own, List.filter_cons]
      split
      · rw [List.flatMap_cons, rest]
        rfl
      · rw [rest]
        rfl

/-- The keys after a change are those before it and the changed one. -/
theorem mem_keys_adjust {buckets : Buckets Key} {key other : Key}
    {change : List ExportedSymbol → List ExportedSymbol}
    (member : other ∈ (buckets.adjust key change).keys) : other ∈ buckets.keys ∨ other = key := by
  obtain ⟨entries⟩ := buckets
  change other ∈ (adjustEntries change key entries).map Prod.fst at member
  change other ∈ entries.map Prod.fst ∨ _
  have front {key : Key} {bucket : List ExportedSymbol} {entries : List (Key × List ExportedSymbol)}
      (member : other ∈ (consNonempty key bucket entries).map Prod.fst) :
      other ∈ entries.map Prod.fst ∨ other = key := by
    cases bucket with
    | nil => exact .inl member
    | cons => exact (List.mem_cons.mp member).symm
  induction entries with
  | nil => exact front member
  | cons entry entries ih =>
      rw [adjustEntries] at member
      split at member
      · exact front member
      · exact .inl (List.mem_cons.mpr (front member).symm)
      · rcases List.mem_cons.mp member with rfl | later
        · exact .inl List.mem_cons_self
        · exact (ih later).imp_left (List.mem_cons_of_mem _)

variable [Std.TransOrd Key]

theorem mem_keys_iff {buckets : Buckets Key} (filing : buckets.FiledBy keyOf) (key : Key) :
    (∃ other ∈ buckets.keys, compare key other = .eq) ↔
      ∃ symbol ∈ buckets.symbols, compare (keyOf symbol) key = .eq := by
  constructor
  · rintro ⟨other, member, same⟩
    obtain ⟨entry, inside, rfl⟩ := List.mem_map.mp member
    obtain ⟨symbol, first⟩ := List.exists_mem_of_ne_nil _ (filing.nonempty entry inside)
    refine ⟨symbol, mem_symbols.mpr ⟨entry, inside, first⟩, ?_⟩
    exact Std.TransCmp.eq_trans (filing.filed entry inside symbol first) (Std.OrientedCmp.eq_symm same)
  · rintro ⟨symbol, member, own⟩
    obtain ⟨entry, inside, first⟩ := mem_symbols.mp member
    refine ⟨entry.1, List.mem_map_of_mem inside, ?_⟩
    exact Std.TransCmp.eq_trans (Std.OrientedCmp.eq_symm own) (filing.filed entry inside symbol first)

theorem find_congr (buckets : Buckets Key) {left right : Key} (same : compare left right = .eq) :
    buckets.find left = buckets.find right := by
  have tests : (fun entry : Key × List ExportedSymbol => compare left entry.1 == .eq) =
      fun entry => compare right entry.1 == .eq := by
    funext entry
    rw [Std.TransCmp.congr_left same]
  rw [find, find, tests]

end Buckets

namespace ExportedSymbol

/-- The order in which the symbols that a query names are listed. -/
def compareFor (query : String) : ExportedSymbol → ExportedSymbol → Ordering :=
  compareLex (compareOn fun symbol => symbol.name != query) compareByName

/-- Symbols by name, file, kind and package, those without a package first. -/
def compareInFull : ExportedSymbol → ExportedSymbol → Ordering :=
  compareLex compareByName
    (compareLex (compareOn fun symbol => symbol.kind.rank)
      (compareLex (compareOn fun symbol => symbol.specifier.isSome)
        (compareOn fun symbol => symbol.specifier.getD "")))

instance (query : String) : Std.TransCmp (compareFor query) := by
  unfold compareFor
  infer_instance

instance : Std.TransCmp compareInFull := by
  unfold compareInFull
  infer_instance

theorem compareFor_ne_eq {query : String} {left right : ExportedSymbol} (apart : ¬left.Alike right) :
    left.compareFor query right ≠ .eq :=
  fun equal => apart (compareByName_eq_iff_alike.mp (compareLex_eq_eq.mp equal).2)

theorem compareInFull_ne_eq {left right : ExportedSymbol} (apart : ¬left.Alike right) :
    left.compareInFull right ≠ .eq :=
  fun equal => apart (compareByName_eq_iff_alike.mp (compareLex_eq_eq.mp equal).1)

end ExportedSymbol

namespace SymbolIndex

/-! ## Symbols in order -/

theorem mem_symbols_iff {index : SymbolIndex} (filed : index.Filed) (symbol : ExportedSymbol) :
    symbol ∈ index.byName.symbols ↔ symbol ∈ index.symbolsInFile symbol.path := by
  rw [symbolsInFile_eq_filter filed, List.mem_filter, filed.sameByFile.mem_iff,
    ExportedSymbol.isDeclaredIn_iff]
  exact (and_iff_left (Path.Same.refl _)).symm

theorem byModule_find_sorted {index : SymbolIndex} (filed : index.Filed) (specifier : String) :
    (index.byModule.find specifier).Pairwise fun left right => left.compareByName right = .lt := by
  rcases Buckets.find_eq_nil_or_mem index.byModule specifier with empty | ⟨entry, member, -, found⟩
  · rw [empty]
    exact List.Pairwise.nil
  · rw [← found]
    exact filed.sorted entry member

/-- A query sorts the symbols under the names that fit. -/
theorem getSymbols_eq_mergeSort (index : SymbolIndex) (query : String) (fromStart : Bool)
    (mode : MatchMode) :
    index.getSymbols query fromStart mode =
      ((index.byName.entries.filter fun entry => mode.fits fromStart query entry.1).flatMap
        Prod.snd).mergeSort fun left right => left.compareFor query right != .gt := by
  have inOrder : (fun left right : ExportedSymbol =>
      if left.name == query then right.name != query || left.compareByName right != .gt
      else right.name != query && left.compareByName right != .gt) =
        fun left right => left.compareFor query right != .gt := by
    funext left right
    have before : compare false true = .lt := rfl
    have after : compare true false = .gt := rfl
    simp only [ExportedSymbol.compareFor, compareLex, compareOn]
    cases leftNamed : left.name == query <;> cases rightNamed : right.name == query <;>
      simp [bne, leftNamed, rightNamed, before, after]
  simp only [getSymbols, inOrder]

theorem getSymbols_eq {index : SymbolIndex} (filed : index.Filed) (query : String) (fromStart : Bool)
    (mode : MatchMode) :
    index.getSymbols query fromStart mode =
      (index.byName.symbols.filter fun symbol => mode.fits fromStart query symbol.name).mergeSort
        fun left right => left.compareFor query right != .gt := by
  rw [getSymbols_eq_mergeSort, Buckets.flatMap_filter_keys filed.byName]

theorem snapshot_eq (index : SymbolIndex) :
    index.snapshot = ⟨index.byName.symbols.mergeSort fun left right =>
      left.compareInFull right != .gt, index.byModule.keys⟩ := by
  have inOrder : snapshot.inOrder = fun left right => left.compareInFull right != .gt := by
    funext left right
    have specifiers : snapshot.bySpecifier left.specifier right.specifier =
        compareLex (compareOn fun symbol : ExportedSymbol => symbol.specifier.isSome)
          (compareOn fun symbol : ExportedSymbol => symbol.specifier.getD "") left right := by
      simp only [compareLex, compareOn]
      cases left.specifier <;> cases right.specifier <;> rfl
    rw [snapshot.inOrder, specifiers]
    rfl
  rw [snapshot, inOrder]

/-! ## The symbols of each file after a change -/

theorem symbolsInFile_removeFile {index : SymbolIndex} (filed : index.Filed) (path other : Path) :
    (index.removeFile path).symbolsInFile other =
      if other.Same path then [] else index.symbolsInFile other := by
  rw [symbolsInFile, removeFile_byFile, Buckets.find_adjust filed.byFile.ordered]
  simp only [Path.compare_eq_iff_same, List.filter_false]
  rfl

theorem symbolsInFile_congr (index : SymbolIndex) {left right : Path} (same : left.Same right) :
    index.symbolsInFile left = index.symbolsInFile right :=
  Buckets.find_congr _ (Path.compare_eq_iff_same.mpr same)

theorem symbolsInFile_foldl_insert {symbols : List ExportedSymbol} {index : SymbolIndex} {path : Path}
    (ordered : index.byFile.entries.Pairwise fun left right => compare left.1 right.1 = .lt)
    (own : ∀ symbol ∈ symbols, symbol.path = path) (other : Path) :
    (symbols.foldl insert index).symbolsInFile other =
      if other.Same path then index.symbolsInFile path ++ symbols else index.symbolsInFile other := by
  induction symbols generalizing index with
  | nil =>
      rw [List.foldl_nil, List.append_nil]
      split
      · rename_i same
        exact symbolsInFile_congr index same
      · rfl
  | cons symbol symbols ih =>
      have inserted (wanted : Path) : (index.insert symbol).symbolsInFile wanted =
          if wanted.Same path then index.symbolsInFile path ++ [symbol]
          else index.symbolsInFile wanted := by
        change (index.byFile.adjust symbol.path (· ++ [symbol])).find wanted = _
        rw [Buckets.find_adjust ordered, own symbol List.mem_cons_self]
        simp only [Path.compare_eq_iff_same]
        rfl
      rw [List.foldl_cons, ih (Buckets.pairwise_adjustEntries _ _ ordered)
        fun later member => own later (List.mem_cons_of_mem _ member), inserted, inserted]
      simp only [Path.Same.refl, reduceIte, List.append_assoc, List.singleton_append]
      split <;> rfl

/-- A file whose symbols are replaced has the new ones, and the other files keep theirs. -/
theorem symbolsInFile_replaceFile {index : SymbolIndex} (filed : index.Filed) (path : Path)
    (symbols : List ExportedSymbol) (other : Path) :
    (index.replaceFile path symbols).symbolsInFile other =
      if other.Same path then attributed path symbols else index.symbolsInFile other := by
  rw [replaceFile, symbolsInFile_foldl_insert (filed.removeFile path).byFile.ordered
    (fun symbol member => attributed_path member), symbolsInFile_removeFile filed,
    symbolsInFile_removeFile filed]
  simp only [Path.Same.refl, reduceIte, List.nil_append]
  split <;> rfl

/-- The files of an index are those that have symbols. -/
theorem symbolsInFile_ne_nil {index : SymbolIndex} (filed : index.Filed) {path : Path}
    (listed : path ∈ index.listFiles) : index.symbolsInFile path ≠ [] := by
  obtain ⟨symbol, member, own⟩ :=
    (Buckets.mem_keys_iff filed.byFile path).mp ⟨path, listed, Std.ReflOrd.compare_self⟩
  rw [symbolsInFile, filed.byFile.find_eq_filter]
  exact List.ne_nil_of_mem (List.mem_filter.mpr ⟨member, by simpa using own⟩)

/-! ## Equal answers -/

/-- Two indexes give the same answers to all questions. -/
structure AnswersAs (left right : SymbolIndex) : Prop where
  snapshot : left.snapshot = right.snapshot
  listFiles : left.listFiles = right.listFiles
  stats : left.stats = right.stats
  symbolsInFile : ∀ path, left.symbolsInFile path = right.symbolsInFile path
  getSymbols : ∀ query fromStart mode,
    left.getSymbols query fromStart mode = right.getSymbols query fromStart mode
  getModules : ∀ query fromStart mode,
    left.getModules query fromStart mode = right.getModules query fromStart mode
  getModule? : ∀ specifier, left.getModule? specifier = right.getModule? specifier

end SymbolIndex

end AutoImport
