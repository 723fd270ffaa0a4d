import AutoImport.Proofs.Symbol.Filing
import Mathlib.Data.List.Basic
import Mathlib.Data.List.Pairwise

/-!
# Histories of an index

An index changes by having the symbols of a file replaced or removed, and by being emptied. After any
such history its three filings agree, its count is right, and its check of itself succeeds.
-/

namespace AutoImport

/-- A change of an index. -/
inductive IndexChange where
  | replaceFile (path : Path) (symbols : List ExportedSymbol)
  | removeFile (path : Path)
  | reset
  deriving Repr

namespace SymbolIndex

/-- An index after a change. -/
def apply (index : SymbolIndex) : IndexChange → SymbolIndex
  | .replaceFile path symbols => index.replaceFile path symbols
  | .removeFile path => index.removeFile path
  | .reset => .empty

/-- The index that changes lead to from the empty one. -/
def afterChanges (changes : List IndexChange) : SymbolIndex :=
  changes.foldl apply .empty

/-! ## The symbols of a file -/

theorem firstOfName_spec (seen : List String) (symbols : List ExportedSymbol) :
    (∀ symbol ∈ attributed.firstOfName seen symbols, symbol.name ∉ seen) ∧
      (attributed.firstOfName seen symbols).Pairwise fun left right => left.name ≠ right.name := by
  induction symbols generalizing seen with
  | nil => simp [attributed.firstOfName]
  | cons symbol symbols ih =>
      rw [attributed.firstOfName]
      split
      · exact ih seen
      · rename_i unseen
        obtain ⟨fresh, distinct⟩ := ih (symbol.name :: seen)
        refine ⟨?_, List.pairwise_cons.mpr ⟨?_, distinct⟩⟩
        · intro other member
          rcases List.mem_cons.mp member with rfl | later
          · simpa using unseen
          · exact fun known => fresh other later (List.mem_cons_of_mem _ known)
        · intro other member same
          exact fresh other member (same ▸ List.mem_cons_self)

/-- A file contributes symbols of its own, at most one of each name. -/
theorem attributed_path {path : Path} {symbols : List ExportedSymbol} {symbol : ExportedSymbol}
    (member : symbol ∈ attributed path symbols) : symbol.path = path := by
  obtain ⟨given, -, rfl⟩ := List.mem_map.mp member
  rfl

theorem attributed_distinct (path : Path) (symbols : List ExportedSymbol) :
    (attributed path symbols).Pairwise fun left right => left.name ≠ right.name :=
  List.pairwise_map.mpr (firstOfName_spec [] symbols).2

/-! ## Replacing a file -/

/-- Inserting symbols of new names one by one adds exactly these. -/
theorem Filed.foldl_insert {symbols : List ExportedSymbol} {index : SymbolIndex}
    (filed : index.Filed)
    (fresh : ∀ symbol ∈ symbols, ∀ other ∈ index.byName.symbols, ¬other.Alike symbol)
    (distinct : symbols.Pairwise fun left right => left.name ≠ right.name) :
    (symbols.foldl SymbolIndex.insert index).Filed := by
  induction symbols generalizing index with
  | nil => exact filed
  | cons symbol symbols ih =>
      have apart := (List.pairwise_cons.mp distinct).1
      refine ih (filed.insert (fresh symbol List.mem_cons_self)) ?_ (List.pairwise_cons.mp distinct).2
      intro later laterMember other member alike
      rcases List.mem_cons.mp ((insert_symbols_perm filed symbol).subset member) with rfl | old
      · exact apart later laterMember alike.1
      · exact fresh later (List.mem_cons_of_mem _ laterMember) other old alike

theorem removeFile_fresh {index : SymbolIndex} (filed : index.Filed) {path : Path}
    {symbol other : ExportedSymbol} (own : symbol.path = path)
    (member : other ∈ (index.removeFile path).byName.symbols) : ¬other.Alike symbol := by
  rw [removeFile_byName_symbols filed] at member
  intro alike
  have declared : other.isDeclaredIn path = true :=
    ExportedSymbol.isDeclaredIn_iff.mpr (own ▸ alike.2)
  simp [declared] at member

theorem Filed.replaceFile {index : SymbolIndex} (filed : index.Filed) (path : Path)
    (symbols : List ExportedSymbol) : (index.replaceFile path symbols).Filed := by
  apply (filed.removeFile path).foldl_insert _ (attributed_distinct path symbols)
  intro symbol symbolMember other member
  exact removeFile_fresh filed (attributed_path symbolMember) member

theorem Filed.apply {index : SymbolIndex} (filed : index.Filed) (change : IndexChange) :
    (index.apply change).Filed := by
  cases change with
  | replaceFile path symbols => exact filed.replaceFile path symbols
  | removeFile path => exact filed.removeFile path
  | reset => exact empty_filed

theorem Filed.foldl_apply {index : SymbolIndex} (filed : index.Filed) (changes : List IndexChange) :
    (changes.foldl SymbolIndex.apply index).Filed := by
  induction changes generalizing index with
  | nil => exact filed
  | cons change changes ih => exact ih (filed.apply change)

/-! ## The check of an index -/

theorem pairwise_mergeSort_of_transCmp {α : Type} (order : α → α → Ordering) [Std.TransCmp order]
    (items : List α) :
    (items.mergeSort fun one other => order one other != .gt).Pairwise
      fun one other => (order one other != .gt) = true := by
  apply List.pairwise_mergeSort
  · intro one two three first second
    simp only [bne_iff_ne, ne_eq, ← Ordering.isLE_iff_ne_gt] at first second ⊢
    exact Std.TransCmp.isLE_trans first second
  · intro one other
    rw [show order other one = (order one other).swap from Std.OrientedCmp.eq_swap]
    cases order one other <;> simp

/-- Items that an order tells apart are sorted in one way only. -/
theorem mergeSort_eq_of_perm {α : Type} {order : α → α → Ordering} [Std.TransCmp order]
    {left right : List α} (same : left.Perm right)
    (distinct : right.Pairwise fun one other => order one other ≠ .eq) :
    left.mergeSort (fun one other => order one other != .gt) =
      right.mergeSort (fun one other => order one other != .gt) := by
  have symm : Std.Symm fun one other => order one other ≠ .eq :=
    ⟨fun _ _ apart equal => apart (Std.OrientedCmp.eq_symm equal)⟩
  refine List.Perm.eq_of_pairwise ?_ (pairwise_mergeSort_of_transCmp order left)
    (pairwise_mergeSort_of_transCmp order right)
    (((List.mergeSort_perm left _).trans same).trans (List.mergeSort_perm right _).symm)
  intro one other oneMember otherMember before after
  by_contra differ
  have oneRight : one ∈ right := same.subset (List.mem_mergeSort.mp oneMember)
  have otherRight : other ∈ right := List.mem_mergeSort.mp otherMember
  have apart := distinct.forall oneRight otherRight differ
  rw [show order other one = (order one other).swap from Std.OrientedCmp.eq_swap] at after
  cases compared : order one other with
  | lt => simp [compared] at after
  | eq => exact apart compared
  | gt => simp [compared] at before

theorem Filed.isConsistent {index : SymbolIndex} (filed : index.Filed) :
    index.isConsistent = true := by
  have own : (index.byModule.entries.flatMap fun entry =>
      entry.2.filter fun symbol => symbol.moduleKey == entry.1) = index.byModule.symbols := by
    apply List.flatMap_congr
    intro entry member
    refine List.filter_eq_self.mpr fun symbol symbolMember => ?_
    simpa using Std.LawfulEqOrd.eq_of_compare (filed.byModule.filed entry member symbol symbolMember)
  have sorted : index.byModule.symbols.mergeSort (fun left right =>
      left.compareByName right != .gt) =
        index.byName.symbols.mergeSort fun left right => left.compareByName right != .gt := by
    apply mergeSort_eq_of_perm filed.sameByModule
    exact filed.distinct.imp fun apart equal =>
      apart (ExportedSymbol.compareByName_eq_iff_alike.mp equal)
  have zipped (symbols : List ExportedSymbol) :
      (symbols.zip symbols).all (fun pair => pair.1.compareByName pair.2 == .eq) = true := by
    rw [List.zip_eq_zipWith, List.zipWith_self, List.all_map]
    simp [ExportedSymbol.compareByName_eq_iff_alike, ExportedSymbol.Alike, Path.Same.refl]
  rw [SymbolIndex.isConsistent]
  dsimp only
  rw [own, sorted]
  simp [zipped, filed.counted, filed.sameByModule.length_eq]

/-- After any history of replaced, removed and dropped files the three filings of an index hold the
same symbols, each once and under its own keys, its count is right, so that the count of no file exceeds
it, and its check of itself succeeds. -/
theorem afterChanges_filed (changes : List IndexChange) :
    (afterChanges changes).Filed ∧ (afterChanges changes).isConsistent = true ∧
      ∀ path, ((afterChanges changes).symbolsInFile path).length ≤
        (afterChanges changes).symbolCount := by
  have filed : (afterChanges changes).Filed := empty_filed.foldl_apply changes
  exact ⟨filed, filed.isConsistent, symbolsInFile_length_le filed⟩

end SymbolIndex

end AutoImport
