import AutoImport.Proofs.Text.Search

/-!
# Lines of a text

The lines of a text make it up again, and each line but the last one ends with its line feed.
-/

namespace AutoImport.Text

theorem flatten_linesWithEnds (text : List Char) : (linesWithEnds text).flatten = text := by
  induction text with
  | nil => rfl
  | cons c text ih =>
      rw [linesWithEnds]
      split
      · rw [List.flatten_cons, ih, List.singleton_append]
      · cases lines : linesWithEnds text with
        | nil =>
            rw [lines] at ih
            simp [← ih]
        | cons line lines' =>
            rw [lines] at ih
            simpa using ih

/-- Lines of a text: only the last one may lack its line feed. -/
inductive AreLines : List (List Char) → Prop where
  | nil : AreLines []
  | last {ink : List Char} : ink ≠ [] → '\n' ∉ ink → AreLines [ink]
  | cons {ink : List Char} {lines : List (List Char)} :
      '\n' ∉ ink → AreLines lines → AreLines ((ink ++ ['\n']) :: lines)

theorem AreLines.ne_nil_of_mem {line : List Char} {lines : List (List Char)} (areLines : AreLines lines)
    (member : line ∈ lines) : line ≠ [] := by
  induction areLines with
  | nil => simp at member
  | last filled _ => simpa [List.mem_singleton.mp member] using filled
  | cons _ _ ih =>
      rcases List.mem_cons.mp member with rfl | later
      · simp
      · exact ih later

theorem linesWithEnds_append_feed {ink : List Char} (oneLine : '\n' ∉ ink) (text : List Char) :
    linesWithEnds (ink ++ '\n' :: text) = (ink ++ ['\n']) :: linesWithEnds text := by
  induction ink with
  | nil => rfl
  | cons c ink ih =>
      have other : (c == '\n') = false :=
        beq_eq_false_iff_ne.mpr (List.ne_of_not_mem_cons oneLine).symm
      rw [List.cons_append, linesWithEnds, other, ih (List.not_mem_of_not_mem_cons oneLine)]
      rfl

theorem linesWithEnds_of_not_mem {ink : List Char} (filled : ink ≠ []) (oneLine : '\n' ∉ ink) :
    linesWithEnds ink = [ink] := by
  induction ink with
  | nil => exact absurd rfl filled
  | cons c ink ih =>
      have other : (c == '\n') = false :=
        beq_eq_false_iff_ne.mpr (List.ne_of_not_mem_cons oneLine).symm
      rw [linesWithEnds, other]
      cases ink with
      | nil => rfl
      | cons d ink =>
          rw [ih (by simp) (List.not_mem_of_not_mem_cons oneLine)]
          rfl

theorem areLines_linesWithEnds (text : List Char) : AreLines (linesWithEnds text) := by
  induction text with
  | nil => exact .nil
  | cons c text ih =>
      rw [linesWithEnds]
      split
      · rename_i feed
        rw [beq_iff_eq.mp feed]
        exact .cons (List.not_mem_nil) ih
      · rename_i noFeed
        have other : '\n' ≠ c := fun same => noFeed (beq_iff_eq.mpr same.symm)
        cases lines : linesWithEnds text with
        | nil => exact .last (by simp) (by simpa using other)
        | cons line lines' =>
            rw [lines] at ih
            cases ih with
            | last filled oneLine => exact .last (by simp) (by simp [other, oneLine])
            | cons oneLine rest => exact @AreLines.cons (c :: _) _ (by simp [other, oneLine]) rest

theorem AreLines.linesWithEnds_flatten {lines : List (List Char)} (areLines : AreLines lines) :
    linesWithEnds lines.flatten = lines := by
  induction areLines with
  | nil => rfl
  | last filled oneLine =>
      rw [List.flatten_singleton]
      exact linesWithEnds_of_not_mem filled oneLine
  | cons oneLine rest ih =>
      rw [List.flatten_cons, List.append_assoc, List.singleton_append,
        linesWithEnds_append_feed oneLine, ih]

theorem AreLines.of_append {front back : List (List Char)} (areLines : AreLines (front ++ back)) :
    AreLines front := by
  induction front with
  | nil => exact .nil
  | cons line front ih =>
      rw [List.cons_append] at areLines
      generalize shape : front ++ back = lines at areLines
      cases areLines with
      | last filled oneLine =>
          rcases List.append_eq_nil_iff.mp shape with ⟨rfl, -⟩
          exact .last filled oneLine
      | cons oneLine rest => exact .cons oneLine (ih (shape ▸ rest))

theorem AreLines.cases_head {line : List Char} {lines : List (List Char)}
    (areLines : AreLines (line :: lines)) :
    AreLines lines ∧ '\n' ∉ line.dropLast ∧ (lines = [] ∨ ∃ ink, line = ink ++ ['\n']) := by
  cases areLines with
  | last filled oneLine =>
      exact ⟨.nil, fun member => oneLine (List.dropLast_subset _ member), .inl rfl⟩
  | cons oneLine rest => exact ⟨rest, by rwa [List.dropLast_concat], .inr ⟨_, rfl⟩⟩

/-- Lines that others follow end with a line feed. -/
theorem getLast?_flatten_lines {text : List Char} {front back : List (List Char)}
    (lines : linesWithEnds text = front ++ back) (filled : back ≠ []) :
    front = [] ∨ front.flatten.getLast? = some '\n' := by
  have areLines := areLines_linesWithEnds text
  rw [lines] at areLines
  clear lines
  induction front with
  | nil => exact .inl rfl
  | cons line front ih =>
      rcases areLines.cases_head with ⟨rest, -, empty | ⟨ink, rfl⟩⟩
      · exact absurd (List.append_eq_nil_iff.mp empty).2 filled
      · right
        rw [List.flatten_cons]
        rcases ih rest with rfl | feed
        · simp
        · rw [List.getLast?_append, feed]
          rfl

end AutoImport.Text
