import AutoImport.Proofs.Text.Boundary
import Mathlib.Data.List.Induction

/-!
# Positions and byte offsets

A position is looked up by skipping its lines and going on by its UTF-16 units. In a text of fewer than
2 ^ 32 bytes this leads back to the byte offset that the position was taken from, and positions come in the
order of their offsets, so that an edit can be made by either.
-/

namespace AutoImport.Text

/-! ## Looking a position up -/

/-- A text cut behind the given number of line feeds. -/
def splitAtLine? : (feeds : Nat) → List Char → Option (List Char × List Char)
  | 0, text => some ([], text)
  | _ + 1, [] => none
  | feeds + 1, c :: text =>
    (splitAtLine? (if c == '\n' then feeds else feeds + 1) text).map fun (front, back) =>
      (c :: front, back)

/-- A text cut behind the given number of UTF-16 units. There is no cut inside a surrogate pair or past
the end. -/
def splitAtUnit? : (units : Nat) → List Char → Option (List Char × List Char)
  | 0, text => some ([], text)
  | _ + 1, [] => none
  | units + 1, c :: text =>
    if utf16Size c ≤ units + 1 then
      (splitAtUnit? (units + 1 - utf16Size c) text).map fun (front, back) => (c :: front, back)
    else none

/-- The byte offset of a position: behind as many line feeds as it has lines in front of it, and then
behind its UTF-16 units. -/
def Position.offset? (position : Position) (text : List Char) : Option Nat := do
  let (lines, rest) ← splitAtLine? position.line text
  let (units, _) ← splitAtUnit? position.character rest
  some (byteLength lines + byteLength units)

/-- The document after a new text took the place of what lies between two positions. -/
def appliedBetween? (start stop : Position) (newText : String) (text : List Char) :
    Option (List Char) := do
  let first ← start.offset? text
  let last ← stop.offset? text
  TextEdit.applied? ⟨first, last, newText⟩ text

/-- The number of UTF-16 units of a text. -/
def utf16Length : List Char → Nat
  | [] => 0
  | c :: text => utf16Size c + utf16Length text

theorem utf16Size_pos (c : Char) : 0 < utf16Size c := by
  unfold utf16Size
  split <;> decide

theorem utf16Size_le_utf8Size (c : Char) : utf16Size c ≤ c.utf8Size := by
  have positive := c.utf8Size_pos
  unfold utf16Size
  split
  · exact positive
  · -- A character of one byte has one unit.
    rename_i wide
    have notSingle : c.utf8Size ≠ 1 := by
      rw [ne_eq, Char.utf8Size_eq_one_iff, UInt32.le_iff_toNat_le]
      change ¬c.toNat ≤ 127
      omega
    omega

theorem utf16Length_concat (text : List Char) (c : Char) :
    utf16Length (text ++ [c]) = utf16Length text + utf16Size c := by
  induction text with
  | nil => simp [utf16Length]
  | cons d text ih => simp [utf16Length, ih, Nat.add_assoc]

theorem splitAtUnit?_append (front back : List Char) :
    splitAtUnit? (utf16Length front) (front ++ back) = some (front, back) := by
  induction front with
  | nil => cases back <;> rfl
  | cons c front ih =>
      have positive := utf16Size_pos c
      obtain ⟨units, length⟩ : ∃ units, utf16Length (c :: front) = units + 1 :=
        ⟨utf16Length (c :: front) - 1, by rw [utf16Length]; omega⟩
      have rest : units + 1 - utf16Size c = utf16Length front := by
        rw [← length, utf16Length]
        omega
      have fits : utf16Size c ≤ units + 1 := by
        rw [← length, utf16Length]
        omega
      rw [length, List.cons_append, splitAtUnit?, if_pos fits, rest, ih]
      rfl

theorem splitAtLine?_append {lines : List Char} (ends : lines = [] ∨ lines.getLast? = some '\n')
    (back : List Char) : splitAtLine? (lines.count '\n') (lines ++ back) = some (lines, back) := by
  induction lines with
  | nil => cases back <;> rfl
  | cons c lines ih =>
      have last : (c :: lines).getLast? = some '\n' := by simpa using ends
      by_cases empty : lines = []
      · subst empty
        obtain rfl : c = '\n' := by simpa using last
        cases back <;> rfl
      · have endsHere : lines.getLast? = some '\n' := by
          rcases List.exists_cons_of_ne_nil empty with ⟨d, rest, rfl⟩
          simpa [List.getLast?_cons_cons] using last
        have counted : 0 < lines.count '\n' := List.count_pos_iff.mpr (List.mem_of_getLast? endsHere)
        obtain ⟨feeds, count⟩ : ∃ feeds, (c :: lines).count '\n' = feeds + 1 := by
          refine ⟨(c :: lines).count '\n' - 1, ?_⟩
          rw [List.count_cons]
          omega
        have rest : (if c == '\n' then feeds else feeds + 1) = lines.count '\n' := by
          rw [List.count_cons] at count
          split at count <;> split <;> simp_all
        rw [count, List.cons_append, splitAtLine?, rest, ih (.inr endsHere)]
        rfl

namespace Position

/-! ## The position behind a text -/

theorem after_concat (text : List Char) (c : Char) : after (text ++ [c]) = (after text).advance c := by
  rw [after, List.foldl_append]
  rfl

/-- The lines of a position are those of the text in front of it, and its column is what the last of them
takes. -/
theorem exists_lines (text : List Char) :
    ∃ lines line, text = lines ++ line ∧ (lines = [] ∨ lines.getLast? = some '\n') ∧ '\n' ∉ line ∧
      after text = ⟨lines.count '\n', utf16Length line⟩ := by
  induction text using List.reverseRecOn with
  | nil => exact ⟨[], [], rfl, .inl rfl, by simp, rfl⟩
  | append_singleton text c ih =>
      rcases ih with ⟨lines, line, rfl, ends, oneLine, position⟩
      rw [after_concat, position, advance]
      by_cases feed : c = '\n'
      · subst feed
        refine ⟨lines ++ line ++ ['\n'], [], by simp, .inr (by simp), by simp, ?_⟩
        have zero : line.count '\n' = 0 := List.count_eq_zero.mpr oneLine
        simp [List.count_append, zero, utf16Length]
      · refine ⟨lines, line ++ [c], by simp, ends, by simp [oneLine, Ne.symm feed], ?_⟩
        rw [if_neg (by simpa using feed), utf16Length_concat]

/-- The position behind a text leads back to the end of this text. -/
theorem offset?_after (front back : List Char) :
    (after front).offset? (front ++ back) = some (byteLength front) := by
  rcases exists_lines front with ⟨lines, line, rfl, ends, -, position⟩
  rw [position, offset?, List.append_assoc, splitAtLine?_append ends]
  simp only [Option.bind_eq_bind, Option.bind_some, splitAtUnit?_append, byteLength_append]

/-- A position has no greater numbers than there are bytes in front of it. -/
theorem line_add_character_le (text : List Char) :
    (after text).line + (after text).character ≤ byteLength text := by
  induction text using List.reverseRecOn with
  | nil => exact Nat.le_refl 0
  | append_singleton text c ih =>
      have positive := c.utf8Size_pos
      have narrow := utf16Size_le_utf8Size c
      rw [after_concat, advance, byteLength_append]
      simp only [byteLength]
      split <;> simp only <;> omega

theorem in32Bits_after {text : List Char} (short : byteLength text < UInt32.size) :
    (after text).in32Bits = after text := by
  have small := line_add_character_le text
  rw [in32Bits, Nat.mod_eq_of_lt (by omega), Nat.mod_eq_of_lt (by omega)]

/-- The position of a place in a short text is the one behind the text in front of it. -/
theorem at?_append {front back : List Char} (short : byteLength (front ++ back) < UInt32.size) :
    at? (front ++ back) (byteLength front) = some (after front) := by
  have shortFront : byteLength front < UInt32.size := by
    rw [byteLength_append] at short
    omega
  rw [at?, splitAtByte?_append]
  split
  · rename_i past
    rw [byteLength_append] at past
    have nothing : back.length = 0 := by
      have := length_le_byteLength back
      omega
    rw [List.length_eq_zero_iff.mp nothing, List.append_nil, in32Bits_after shortFront]
  · simp only [Option.map_some, in32Bits_after shortFront]

theorem exists_at?_of_isBoundary {text : List Char} {offset : Nat} (boundary : IsBoundary text offset) :
    ∃ position, at? text offset = some position := by
  rcases boundary with ⟨front, back, rfl, rfl⟩
  rw [at?, splitAtByte?_append]
  split
  · exact ⟨_, rfl⟩
  · exact ⟨_, rfl⟩

/-! ## The order of positions -/

/-- Positions are ordered by their lines and then by their columns. -/
instance : LT Position :=
  ⟨fun first second =>
    first.line < second.line ∨ first.line = second.line ∧ first.character < second.character⟩

theorem lt_iff {first second : Position} : first < second ↔
    first.line < second.line ∨ first.line = second.line ∧ first.character < second.character :=
  Iff.rfl

theorem lt_trans {first second third : Position} (left : first < second) (right : second < third) :
    first < third := by
  rw [lt_iff] at left right ⊢
  omega

theorem lt_advance (position : Position) (c : Char) : position < position.advance c := by
  rw [advance]
  split
  · exact .inl (Nat.lt_succ_self position.line)
  · exact .inr ⟨rfl, Nat.lt_add_of_pos_right (utf16Size_pos c)⟩

/-- A position moves on with each character. -/
theorem after_lt_after_append (front : List Char) {text : List Char} (filled : text ≠ []) :
    after front < after (front ++ text) := by
  induction text using List.reverseRecOn with
  | nil => exact absurd rfl filled
  | append_singleton text c ih =>
      rw [← List.append_assoc, after_concat]
      by_cases empty : text = []
      · rw [empty, List.append_nil]
        exact lt_advance (after front) c
      · exact lt_trans (ih empty) (lt_advance _ c)

end Position

/-! ## Positions instead of offsets -/

/-- The positions of a text and its byte offsets stand for each other. -/
structure PositionsMatchOffsets (text : List Char) : Prop where
  increasing : ∀ {first second : Nat}, IsBoundary text first → IsBoundary text second → first < second →
    ∃ start stop, Position.at? text first = some start ∧ Position.at? text second = some stop ∧
      start < stop
  found : ∀ {offset : Nat}, IsBoundary text offset →
    ∃ position, Position.at? text offset = some position ∧ position.offset? text = some offset
  applied : ∀ edit : TextEdit, IsBoundary text edit.start → IsBoundary text edit.stop →
    ∃ start stop result, edit.positions? text = some (start, stop) ∧
      edit.applied? text = some result ∧ appliedBetween? start stop edit.newText text = some result

section Short

variable {text : List Char} (short : byteLength text < UInt32.size)
include short

theorem exists_position_of_boundary {offset : Nat} (boundary : IsBoundary text offset) :
    ∃ position, Position.at? text offset = some position ∧ position.offset? text = some offset := by
  rcases boundary with ⟨front, back, rfl, rfl⟩
  exact ⟨_, Position.at?_append short, Position.offset?_after front back⟩

theorem exists_positions_of_lt {first second : Nat} (start : IsBoundary text first)
    (stop : IsBoundary text second) (lt : first < second) :
    ∃ before behind, Position.at? text first = some before ∧ Position.at? text second = some behind ∧
      before < behind := by
  rcases exists_parts_of_lt start stop lt with ⟨front, middle, back, rfl, filled, rfl, rfl⟩
  refine ⟨Position.after front, Position.after (front ++ middle), Position.at?_append short, ?_, ?_⟩
  · rw [← List.append_assoc] at short ⊢
    exact Position.at?_append short
  · exact Position.after_lt_after_append front filled

/-- In a text of fewer than 2 ^ 32 bytes, positions and byte offsets are interchangeable. -/
theorem positions_match_offsets : PositionsMatchOffsets text where
  increasing := exists_positions_of_lt short
  found := exists_position_of_boundary short
  applied := by
    intro edit first last
    rcases exists_position_of_boundary short first with ⟨start, startAt, startBack⟩
    rcases exists_position_of_boundary short last with ⟨stop, stopAt, stopBack⟩
    rcases first with ⟨front, rest, cutFront, frontEnd⟩
    rcases last with ⟨kept, back, cutBack, backStart⟩
    have result : edit.applied? text = some (front ++ edit.newText.toList ++ back) := by
      have before := splitAtByte?_eq_some_iff.mpr ⟨cutFront, frontEnd⟩
      have behind := splitAtByte?_eq_some_iff.mpr ⟨cutBack, backStart⟩
      simp only [TextEdit.applied?, before, behind, Option.bind_eq_bind, Option.bind_some]
    refine ⟨start, stop, _, ?_, result, ?_⟩
    · simp only [TextEdit.positions?, startAt, stopAt, Option.bind_eq_bind, Option.bind_some]
    · simp only [appliedBetween?, startBack, stopBack, Option.bind_eq_bind, Option.bind_some]
      exact result

end Short

/-- A text of characters of one to four bytes, with a carriage return and without a last line feed. -/
theorem positions_match_offsets_of_surrogates :
    byteLength "aé\r\n€😀x".toList < UInt32.size ∧ PositionsMatchOffsets "aé\r\n€😀x".toList ∧
      Position.at? "aé\r\n€😀x".toList 12 = some ⟨1, 3⟩ := by
  have short : byteLength "aé\r\n€😀x".toList < UInt32.size := by decide
  exact ⟨short, positions_match_offsets short, by decide⟩

end AutoImport.Text
