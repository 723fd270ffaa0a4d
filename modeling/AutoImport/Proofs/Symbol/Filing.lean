import AutoImport.Proofs.Symbol.Buckets

/-!
# The three filings of an index

An index files its symbols by name, by module and by file. `SymbolIndex.Filed` says that the three
filings hold the same symbols, each once and under its own keys. Replacing and removing files keep it,
so it holds of every index that they lead to, and such an index passes its own check.
-/

namespace AutoImport

namespace ExportedSymbol

/-- Of two symbols with one name and one file, each takes the place of the other. -/
def Alike (left right : ExportedSymbol) : Prop :=
  left.name = right.name ∧ left.path.Same right.path

theorem compareByName_eq_iff_alike {left right : ExportedSymbol} :
    left.compareByName right = .eq ↔ left.Alike right :=
  compareByName_eq_iff

theorem Alike.symm {left right : ExportedSymbol} (alike : left.Alike right) : right.Alike left :=
  ⟨alike.1.symm, alike.2.symm⟩

/-- A symbol goes between those before it and the rest. -/
theorem insertByName_eq (symbol : ExportedSymbol) (symbols : List ExportedSymbol) :
    symbol.insertByName symbols =
      symbols.takeWhile (fun other => other.compareByName symbol == .lt) ++
        symbol :: symbols.dropWhile (fun other => other.compareByName symbol == .lt) := by
  induction symbols with
  | nil => rfl
  | cons other symbols ih =>
      rw [insertByName]
      by_cases before : other.compareByName symbol == .lt
      · simp [before, ih]
      · simp [before]

theorem insertByName_perm (symbol : ExportedSymbol) (symbols : List ExportedSymbol) :
    (symbol.insertByName symbols).Perm (symbol :: symbols) := by
  rw [insertByName_eq]
  refine List.perm_middle.trans ?_
  rw [List.takeWhile_append_dropWhile]

/-- Sorted symbols stay sorted when one is added that is not there yet. -/
theorem insertByName_sorted {symbol : ExportedSymbol} {symbols : List ExportedSymbol}
    (sorted : symbols.Pairwise fun left right => left.compareByName right = .lt)
    (fresh : ∀ other ∈ symbols, ¬other.Alike symbol) :
    (symbol.insertByName symbols).Pairwise fun left right => left.compareByName right = .lt := by
  induction symbols with
  | nil => simp [insertByName]
  | cons other symbols ih =>
      have later := (List.pairwise_cons.mp sorted).1
      rw [insertByName]
      split
      · rename_i before
        refine List.pairwise_cons.mpr ⟨?_, ih (List.pairwise_cons.mp sorted).2 ?_⟩
        · intro third member
          rcases List.mem_cons.mp ((insertByName_perm symbol symbols).subset member) with rfl | old
          · simpa using before
          · exact later third old
        · intro third member
          exact fresh third (List.mem_cons_of_mem _ member)
      · rename_i notBefore
        have after : symbol.compareByName other = .lt := by
          have apart : other.compareByName symbol ≠ .eq := fun equal =>
            fresh other List.mem_cons_self (compareByName_eq_iff_alike.mp equal)
          apply Std.OrientedCmp.lt_of_gt
          cases order : other.compareByName symbol <;> simp_all
        refine List.pairwise_cons.mpr ⟨?_, sorted⟩
        intro third member
        rcases List.mem_cons.mp member with rfl | old
        · exact after
        · exact Std.TransCmp.lt_trans after (later third old)

end ExportedSymbol

namespace SymbolIndex

/-- The three filings of an index hold the same symbols, each once and under its own keys. -/
structure Filed (index : SymbolIndex) : Prop where
  byName : index.byName.FiledBy ExportedSymbol.name
  byModule : index.byModule.FiledBy ExportedSymbol.moduleKey
  byFile : index.byFile.FiledBy ExportedSymbol.path
  sameByModule : index.byModule.symbols.Perm index.byName.symbols
  sameByFile : index.byFile.symbols.Perm index.byName.symbols
  /-- No two symbols have one name and one file. -/
  distinct : index.byName.symbols.Pairwise fun left right => ¬left.Alike right
  /-- The symbols of a module are in the order of their names and files. -/
  sorted : ∀ entry ∈ index.byModule.entries,
    entry.2.Pairwise fun left right => left.compareByName right = .lt
  counted : index.symbolCount = index.byName.symbols.length

theorem empty_filed : empty.Filed where
  byName := Buckets.empty_filedBy _
  byModule := Buckets.empty_filedBy _
  byFile := Buckets.empty_filedBy _
  sameByModule := List.Perm.nil
  sameByFile := List.Perm.nil
  distinct := List.Pairwise.nil
  sorted := by simp [empty, Buckets.empty]
  counted := rfl

/-! ## Inserting a symbol -/

theorem insert_symbols_perm {index : SymbolIndex} (filed : index.Filed) (symbol : ExportedSymbol) :
    (index.insert symbol).byName.symbols.Perm (symbol :: index.byName.symbols) :=
  Buckets.symbols_adjust_cons filed.byName.ordered _ fun _ => List.perm_append_singleton _ _

theorem insert_byModule_sorted {index : SymbolIndex} (filed : index.Filed) {symbol : ExportedSymbol}
    (fresh : ∀ other ∈ index.byName.symbols, ¬other.Alike symbol) :
    ∀ entry ∈ (index.insert symbol).byModule.entries,
      entry.2.Pairwise fun left right => left.compareByName right = .lt := by
  intro entry member
  rcases Buckets.mem_adjustEntries member with kept | ⟨-, changed, -⟩ | ⟨-, created, -⟩
  · exact filed.sorted entry kept
  · rw [changed]
    change (symbol.insertByName (index.byModule.find symbol.moduleKey)).Pairwise _
    rcases Buckets.find_eq_nil_or_mem index.byModule symbol.moduleKey with
      empty | ⟨old, oldMember, -, found⟩
    · simp [empty, ExportedSymbol.insertByName]
    · rw [← found]
      refine ExportedSymbol.insertByName_sorted (filed.sorted old oldMember) fun other member => ?_
      apply fresh other
      exact filed.sameByModule.subset (Buckets.mem_symbols.mpr ⟨old, oldMember, member⟩)
  · rw [created]
    simp [ExportedSymbol.insertByName]

theorem Filed.insert {index : SymbolIndex} (filed : index.Filed) {symbol : ExportedSymbol}
    (fresh : ∀ other ∈ index.byName.symbols, ¬other.Alike symbol) : (index.insert symbol).Filed where
  byName := filed.byName.adjust_cons fun _ => List.perm_append_singleton _ _
  byModule := filed.byModule.adjust_cons (ExportedSymbol.insertByName_perm symbol)
  byFile := filed.byFile.adjust_cons fun _ => List.perm_append_singleton _ _
  sameByModule :=
    (Buckets.symbols_adjust_cons filed.byModule.ordered _
      (ExportedSymbol.insertByName_perm symbol)).trans
      ((filed.sameByModule.cons symbol).trans (insert_symbols_perm filed symbol).symm)
  sameByFile :=
    (Buckets.symbols_adjust_cons filed.byFile.ordered _
      fun _ => List.perm_append_singleton _ _).trans
      ((filed.sameByFile.cons symbol).trans (insert_symbols_perm filed symbol).symm)
  distinct := by
    refine ((insert_symbols_perm filed symbol).pairwise_iff fun apart alike => ?_).mpr ?_
    · exact apart alike.symm
    · exact List.pairwise_cons.mpr ⟨fun other member alike => fresh other member alike.symm,
        filed.distinct⟩
  sorted := insert_byModule_sorted filed fresh
  counted := by
    rw [(insert_symbols_perm filed symbol).length_eq, List.length_cons, ← filed.counted]
    rfl

/-! ## Removing a file -/

theorem foldl_forget_byName (path : Path) (symbols : List ExportedSymbol) (index : SymbolIndex) :
    (symbols.foldl (forget path) index).byName =
      symbols.foldl (fun buckets symbol =>
        buckets.adjust symbol.name (List.filter fun other => !other.isDeclaredIn path))
        index.byName := by
  induction symbols generalizing index with
  | nil => rfl
  | cons symbol symbols ih => exact ih (forget path index symbol)

theorem foldl_forget_byModule (path : Path) (symbols : List ExportedSymbol) (index : SymbolIndex) :
    (symbols.foldl (forget path) index).byModule =
      symbols.foldl (fun buckets symbol =>
        buckets.adjust symbol.moduleKey (List.filter fun other => !other.isDeclaredIn path))
        index.byModule := by
  induction symbols generalizing index with
  | nil => rfl
  | cons symbol symbols ih => exact ih (forget path index symbol)

theorem foldl_forget_byFile (path : Path) (symbols : List ExportedSymbol) (index : SymbolIndex) :
    (symbols.foldl (forget path) index).byFile = index.byFile := by
  induction symbols generalizing index with
  | nil => rfl
  | cons symbol symbols ih => exact ih (forget path index symbol)

theorem foldl_forget_symbolCount (path : Path) (symbols : List ExportedSymbol)
    (index : SymbolIndex) :
    (symbols.foldl (forget path) index).symbolCount = index.symbolCount := by
  induction symbols generalizing index with
  | nil => rfl
  | cons symbol symbols ih => exact ih (forget path index symbol)

theorem removeFile_byFile (index : SymbolIndex) (path : Path) :
    (index.removeFile path).byFile = index.byFile.adjust path (List.filter fun _ => false) := by
  have forgotten : (fun _ => [] : List ExportedSymbol → List ExportedSymbol) =
      List.filter fun _ => false := by
    funext symbols
    simp
  change ((index.symbolsInFile path).foldl (forget path) index).byFile.adjust path _ = _
  rw [foldl_forget_byFile, forgotten]

theorem symbolsInFile_eq_filter {index : SymbolIndex} (filed : index.Filed) (path : Path) :
    index.symbolsInFile path =
      index.byFile.symbols.filter fun symbol => symbol.isDeclaredIn path := by
  rw [symbolsInFile, filed.byFile.find_eq_filter]
  refine List.filter_congr fun symbol _ => ?_
  rw [Bool.eq_iff_iff]
  simp [ExportedSymbol.isDeclaredIn_iff]

/-- A file whose symbols are gone one by one has none left under any key. -/
theorem keep_others_iff {Key : Type} [Ord Key] [Std.ReflOrd Key] {keyOf : ExportedSymbol → Key}
    {index : SymbolIndex} (filed : index.Filed) {path : Path} {symbol : ExportedSymbol}
    (member : symbol ∈ index.byName.symbols) :
    ((index.symbolsInFile path).all (fun other => compare (keyOf symbol) (keyOf other) != .eq) ||
      !symbol.isDeclaredIn path) = !symbol.isDeclaredIn path := by
  cases declared : symbol.isDeclaredIn path with
  | false => simp
  | true =>
      have removed : symbol ∈ index.symbolsInFile path := by
        rw [symbolsInFile_eq_filter filed]
        exact List.mem_filter.mpr ⟨filed.sameByFile.symm.subset member, declared⟩
      simp only [Bool.not_true, Bool.or_false, List.all_eq_false]
      exact ⟨symbol, removed, by simp⟩

theorem removeFile_byName_symbols {index : SymbolIndex} (filed : index.Filed) (path : Path) :
    (index.removeFile path).byName.symbols =
      index.byName.symbols.filter fun symbol => !symbol.isDeclaredIn path := by
  change ((index.symbolsInFile path).foldl (forget path) index).byName.symbols = _
  rw [foldl_forget_byName, (filed.byName.foldl_adjust_filter _ _).2.2]
  exact List.filter_congr fun symbol member => keep_others_iff filed member

theorem removeFile_byModule_symbols {index : SymbolIndex} (filed : index.Filed) (path : Path) :
    (index.removeFile path).byModule.symbols =
      index.byModule.symbols.filter fun symbol => !symbol.isDeclaredIn path := by
  change ((index.symbolsInFile path).foldl (forget path) index).byModule.symbols = _
  rw [foldl_forget_byModule, (filed.byModule.foldl_adjust_filter _ _).2.2]
  exact List.filter_congr fun symbol member =>
    keep_others_iff filed (filed.sameByModule.subset member)

theorem removeFile_byFile_symbols {index : SymbolIndex} (filed : index.Filed) (path : Path) :
    (index.removeFile path).byFile.symbols =
      index.byFile.symbols.filter fun symbol => !symbol.isDeclaredIn path := by
  rw [removeFile_byFile, filed.byFile.symbols_adjust_filter]
  refine List.filter_congr fun symbol _ => ?_
  rw [Bool.eq_iff_iff]
  simp [← ExportedSymbol.isDeclaredIn_iff]

/-- The symbols of a file are among those that are counted. -/
theorem symbolsInFile_length_le {index : SymbolIndex} (filed : index.Filed) (path : Path) :
    (index.symbolsInFile path).length ≤ index.symbolCount := by
  rw [symbolsInFile_eq_filter filed, filed.counted, ← filed.sameByFile.length_eq]
  exact List.length_filter_le _ _

theorem Filed.removeFile {index : SymbolIndex} (filed : index.Filed) (path : Path) :
    (index.removeFile path).Filed where
  byName := by
    change ((index.symbolsInFile path).foldl (forget path) index).byName.FiledBy _
    rw [foldl_forget_byName]
    exact (filed.byName.foldl_adjust_filter _ _).1
  byModule := by
    change ((index.symbolsInFile path).foldl (forget path) index).byModule.FiledBy _
    rw [foldl_forget_byModule]
    exact (filed.byModule.foldl_adjust_filter _ _).1
  byFile := by
    rw [removeFile_byFile]
    exact filed.byFile.adjust_filter path _
  sameByModule := by
    rw [removeFile_byModule_symbols filed, removeFile_byName_symbols filed]
    exact filed.sameByModule.filter _
  sameByFile := by
    rw [removeFile_byFile_symbols filed, removeFile_byName_symbols filed]
    exact filed.sameByFile.filter _
  distinct := by
    rw [removeFile_byName_symbols filed]
    exact filed.distinct.filter _
  sorted := by
    intro entry member
    change entry ∈ ((index.symbolsInFile path).foldl (forget path) index).byModule.entries at member
    rw [foldl_forget_byModule] at member
    obtain ⟨old, oldMember, shorter⟩ := (filed.byModule.foldl_adjust_filter _ _).2.1 entry member
    exact (filed.sorted old oldMember).sublist shorter
  counted := by
    have total := (List.filter_append_perm (fun symbol => symbol.isDeclaredIn path)
      index.byName.symbols).length_eq
    have removed := (filed.sameByFile.filter fun symbol => symbol.isDeclaredIn path).length_eq
    rw [removeFile_byName_symbols filed]
    change ((index.symbolsInFile path).foldl (forget path) index).symbolCount -
      (index.symbolsInFile path).length = _
    rw [foldl_forget_symbolCount, symbolsInFile_eq_filter filed, removed, filed.counted, ← total,
      List.length_append]
    omega

end SymbolIndex

end AutoImport
