import AutoImport.Symbol.Index

/-!
# The order of paths

Components, paths and symbols are compared by total orders. Two paths are equal in the order exactly
when they have the same components, however they are spelled, and two symbols exactly when they have
the same name and are declared in the same file.
-/

namespace AutoImport

namespace Component

/-- The text of a name; other components are told apart by their rank alone. -/
def text : Component → String
  | .name text => text
  | _ => ""

/-- Components are compared by their rank and then by their text. -/
theorem compare_eq_compareLex :
    Component.compare = compareLex (compareOn rank) (compareOn text) := by
  funext left right
  cases left <;> cases right <;> rfl

instance : Std.TransCmp Component.compare := by
  rw [compare_eq_compareLex]
  infer_instance

instance : Std.LawfulEqCmp Component.compare where
  eq_of_compare {left right} equal := by
    rw [compare_eq_compareLex, compareLex_eq_eq] at equal
    have sameRank : left.rank = right.rank := Std.LawfulEqOrd.eq_of_compare equal.1
    have sameText : left.text = right.text := Std.LawfulEqOrd.eq_of_compare equal.2
    cases left <;> cases right <;> simp_all [rank, text]

end Component

namespace Path

theorem compareComponents_eq_compareLex :
    compareComponents = List.compareLex Component.compare := by
  funext lefts
  induction lefts with
  | nil =>
      funext rights
      cases rights <;> rfl
  | cons left lefts ih =>
      funext rights
      cases rights with
      | nil => rfl
      | cons right rights =>
          rw [List.compareLex_cons_cons, ← ih]
          rfl

instance : Std.TransOrd Path where
  eq_swap {left right} := by
    change compareComponents left.components right.components =
      (compareComponents right.components left.components).swap
    rw [compareComponents_eq_compareLex]
    exact Std.OrientedCmp.eq_swap
  isLE_trans {left middle right} := by
    change (compareComponents left.components middle.components).isLE = true →
      (compareComponents middle.components right.components).isLE = true →
      (compareComponents left.components right.components).isLE = true
    rw [compareComponents_eq_compareLex]
    exact Std.TransCmp.isLE_trans

/-- Paths are equal in their order when they have the same components. -/
@[simp]
theorem compare_eq_iff_same {left right : Path} : compare left right = .eq ↔ left.Same right := by
  change compareComponents left.components right.components = .eq ↔ _
  rw [compareComponents_eq_compareLex]
  exact Std.LawfulEqCmp.compare_eq_iff_eq

theorem Same.refl (path : Path) : path.Same path := rfl

theorem Same.symm {left right : Path} (same : left.Same right) : right.Same left := Eq.symm same

theorem Same.trans {left middle right : Path} (first : left.Same middle)
    (second : middle.Same right) : left.Same right := Eq.trans first second

end Path

namespace ExportedSymbol

theorem compareByName_eq_compareLex :
    compareByName = compareLex (compareOn name) (compareOn path) := by
  rfl

instance : Std.TransCmp compareByName := by
  rw [compareByName_eq_compareLex]
  infer_instance

/-- Two symbols are equal in their order when they have one name and one file. -/
theorem compareByName_eq_iff {left right : ExportedSymbol} :
    left.compareByName right = .eq ↔ left.name = right.name ∧ left.path.Same right.path := by
  rw [compareByName_eq_compareLex, compareLex_eq_eq]
  apply and_congr
  · exact Std.LawfulEqOrd.compare_eq_iff_eq (a := left.name) (b := right.name)
  · exact Path.compare_eq_iff_same

theorem isDeclaredIn_iff {symbol : ExportedSymbol} {document : Path} :
    symbol.isDeclaredIn document = true ↔ symbol.path.Same document := by
  simp [isDeclaredIn]

end ExportedSymbol

end AutoImport
