import AutoImport.Text.Character

/-!
# Classes of characters apart

A blank and a quotation mark end an identifier, and so does everything of ASCII that punctuates an
import.
-/

namespace AutoImport.Text

/-- The code points of the blanks beyond ASCII. -/
private def wideBlanks : List Nat :=
  [0x85, 0xA0, 0x1680, 0x2000, 0x2001, 0x2002, 0x2003, 0x2004, 0x2005, 0x2006, 0x2007, 0x2008, 0x2009,
    0x200A, 0x2028, 0x2029, 0x202F, 0x205F, 0x3000]

private theorem inRanges_word_of_wideBlank :
    ∀ point ∈ wideBlanks, 128 ≤ point ∧ inRanges point Table.wordRanges = false := by
  decide +kernel

private theorem toNat_of_isBlank {c : Char} (blank : isBlank c = true) :
    c.toNat ∈ [9, 10, 11, 12, 13, 32] ∨ c.toNat ∈ wideBlanks := by
  simp only [isBlank, Bool.or_eq_true, Bool.and_eq_true, decide_eq_true_eq, beq_iff_eq] at blank
  simp only [wideBlanks, List.mem_cons, List.not_mem_nil, or_false]
  omega

theorem not_isIdentifierPart_of_isBlank {c : Char} (blank : isBlank c = true) :
    isIdentifierPart c = false := by
  rcases toNat_of_isBlank blank with narrow | wide
  · obtain ⟨point, listed, rfl⟩ : ∃ point ∈ [9, 10, 11, 12, 13, 32], c = Char.ofNat point :=
      ⟨c.toNat, narrow, (Char.ofNat_toNat c).symm⟩
    revert point
    decide
  · obtain ⟨beyond, noWord⟩ := inRanges_word_of_wideBlank _ wide
    have notDollar : (c == '$') = false := by
      rw [beq_eq_false_iff_ne]
      rintro rfl
      exact absurd beyond (by decide)
    simp only [isIdentifierPart, isWordPart, if_neg (Nat.not_lt.mpr beyond), noWord, notDollar,
      Bool.or_self]

theorem not_isIdentifierPart_of_isQuote {c : Char} (quote : isQuote c = true) :
    isIdentifierPart c = false := by
  simp only [isQuote, Bool.or_eq_true, beq_iff_eq] at quote
  rcases quote with rfl | rfl <;> decide

theorem not_isBlank_of_isQuote {c : Char} (quote : isQuote c = true) : isBlank c = false := by
  simp only [isQuote, Bool.or_eq_true, beq_iff_eq] at quote
  rcases quote with rfl | rfl <;> decide

theorem not_isBlank_of_isIdentifierPart {c : Char} (part : isIdentifierPart c = true) :
    isBlank c = false := by
  rw [Bool.eq_false_iff]
  intro blank
  simp [not_isIdentifierPart_of_isBlank blank] at part

theorem isBlank_of_isInlineBlank {c : Char} (inline : isInlineBlank c = true) : isBlank c = true := by
  simp only [isInlineBlank, Bool.or_eq_true, beq_iff_eq] at inline
  rcases inline with rfl | rfl <;> decide

theorem isIdentifierPart_of_isIdentifierStart {c : Char} (start : isIdentifierStart c = true) :
    isIdentifierPart c = true := by
  simp only [isIdentifierStart, Bool.or_eq_true, beq_iff_eq] at start
  rcases start with (letter | rfl) | rfl
  · have small : c.toNat < 128 := by
      have : c.val.toNat = c.toNat := rfl
      rcases (Bool.or_eq_true _ _).mp letter with upper | lower
      · have := UInt32.le_iff_toNat_le.mp (of_decide_eq_true upper).2
        simp at this
        omega
      · have := UInt32.le_iff_toNat_le.mp (of_decide_eq_true ((Bool.and_eq_true _ _).mp lower).2)
        simp at this
        omega
    simp [isIdentifierPart, isWordPart, small, Char.isAlphanum, letter]
  · decide
  · decide

end AutoImport.Text
