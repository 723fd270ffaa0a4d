import AutoImport.Completion.Context
import AutoImport.Proofs.Text.Cursor
import Mathlib.Data.List.Induction

/-!
# Completion inside of quotation marks

On a line that reads like an import, what is completed is the text behind the last quotation mark in front
of the cursor. A reader who comes from the left knows whether this mark opens a literal. If it does, the
literal is open at the cursor and its text is completed. If the mark closes a literal, or stands in one of
the other kind, what is completed is not the text of a literal.
-/

namespace AutoImport

open Text

/-! ## Reading quotation marks from the left -/

/-- A literal that is open: the quotation mark that opened it and what was read since. -/
structure OpenLiteral where
  mark : Char
  inside : List Char
  deriving DecidableEq, Repr

namespace OpenLiteral

/-- A quotation mark opens a literal when none is open, and closes it when it equals the opening one. -/
def step : Option OpenLiteral → Char → Option OpenLiteral
  | none, c => if isQuote c then some ⟨c, []⟩ else none
  | some literal, c =>
    if c == literal.mark then none else some ⟨literal.mark, literal.inside ++ [c]⟩

/-- The literal that is open behind a text. -/
def behind (text : List Char) : Option OpenLiteral :=
  text.foldl step none

theorem behind_append (front back : List Char) :
    behind (front ++ back) = back.foldl step (behind front) :=
  List.foldl_append

theorem foldl_step_of_not_mem {mark : Char} {text : List Char} (stays : mark ∉ text)
    (done : List Char) : text.foldl step (some ⟨mark, done⟩) = some ⟨mark, done ++ text⟩ := by
  induction text generalizing done with
  | nil => simp
  | cons c text ih =>
      have other : (c == mark) = false :=
        beq_eq_false_iff_ne.mpr (List.ne_of_not_mem_cons stays).symm
      rw [List.foldl_cons, step, if_neg (by simp [other]), ih (List.not_mem_of_not_mem_cons stays)]
      simp

/-- An open literal is what stands behind its mark, up to the end. -/
theorem behind_eq_some_iff {text : List Char} {literal : OpenLiteral} :
    behind text = some literal ↔
      ∃ front, text = front ++ literal.mark :: literal.inside ∧ behind front = none ∧
        isQuote literal.mark = true ∧ literal.mark ∉ literal.inside := by
  constructor
  · intro opened
    induction text using List.reverseRecOn generalizing literal with
    | nil => simp [behind] at opened
    | append_singleton text c ih =>
        rw [behind_append, List.foldl_cons, List.foldl_nil] at opened
        cases before : behind text with
        | none =>
            rw [before, step, Option.ite_none_right_eq_some, Option.some.injEq] at opened
            obtain ⟨quote, rfl⟩ := opened
            exact ⟨text, rfl, before, quote, by simp⟩
        | some earlier =>
            rw [before, step, Option.ite_none_left_eq_some, Option.some.injEq] at opened
            obtain ⟨other, rfl⟩ := opened
            rcases ih before with ⟨front, rfl, free, quote, stays⟩
            have apart : earlier.mark ≠ c := fun same => other (by simp [same])
            exact ⟨front, by simp, free, quote, by simp [stays, apart]⟩
  · rintro ⟨front, rfl, free, quote, stays⟩
    rw [behind_append, free, List.foldl_cons, step, if_pos quote, foldl_step_of_not_mem stays]
    rfl

/-- The last quotation mark of a text opens the literal that is open behind the text exactly when no
literal is open in front of it. -/
theorem behind_append_quote {front text : List Char} {mark : Char} (quote : isQuote mark = true)
    (plain : ∀ c ∈ text, isQuote c = false) :
    (∃ other, behind (front ++ mark :: text) = some ⟨other, text⟩) ↔ behind front = none := by
  have notIn {other : Char} (isMark : isQuote other = true) : other ∉ text := by
    intro member
    simp [plain other member] at isMark
  constructor
  · rintro ⟨other, opened⟩
    rcases behind_eq_some_iff.mp opened with ⟨start, shape, free, -, -⟩
    obtain ⟨same, -⟩ := List.append_inj' shape rfl
    exact same ▸ free
  · intro free
    exact ⟨mark, behind_eq_some_iff.mpr ⟨front, rfl, free, quote, notIn quote⟩⟩

end OpenLiteral

/-! ## What is completed -/

/-- A line with the words `import` and `from`. -/
def ReadsLikeImport (line : List Char) : Prop :=
  contains ['i', 'm', 'p', 'o', 'r', 't'] line = true ∧ contains ['f', 'r', 'o', 'm'] line = true

instance (line : List Char) : Decidable (ReadsLikeImport line) :=
  inferInstanceAs (Decidable (_ ∧ _))

theorem takeWhile_reverse_append {front text : List Char} {mark : Char} (quote : isQuote mark = true)
    (plain : ∀ c ∈ text, isQuote c = false) :
    ((front ++ mark :: text).reverse.takeWhile fun c => !isQuote c).reverse = text := by
  have reversed : (front ++ mark :: text).reverse = text.reverse ++ mark :: front.reverse := by simp
  rw [reversed, takeWhile_append_of_stop, List.reverse_reverse]
  · intro c member
    simp [plain c (List.mem_reverse.mp member)]
  · rintro c ⟨⟩
    simp [quote]

theorem forall_or_exists_quote (text : List Char) :
    (∀ c ∈ text, isQuote c = false) ∨
      ∃ front mark rest, text = front ++ mark :: rest ∧ isQuote mark = true ∧
        ∀ c ∈ rest, isQuote c = false := by
  induction text using List.reverseRecOn with
  | nil => exact .inl (by simp)
  | append_singleton text c ih =>
      by_cases quote : isQuote c = true
      · exact .inr ⟨text, c, [], rfl, quote, by simp⟩
      · have notQuote : isQuote c = false := by simpa using quote
        rcases ih with plain | ⟨front, mark, rest, rfl, isMark, plain⟩
        · left
          simpa [or_imp, forall_and, notQuote] using plain
        · right
          refine ⟨front, mark, rest ++ [c], by simp, isMark, ?_⟩
          simpa [or_imp, forall_and, notQuote] using plain

theorem moduleContext?_of_plain {line : List Char} {column : Nat}
    (plain : ∀ c ∈ line.take column, isQuote c = false) : moduleContext? line column = none := by
  have all : ∀ c ∈ (line.take column).reverse, (!isQuote c) = true := by
    intro c member
    simp [plain c (List.mem_reverse.mp member)]
  have taken := @takeWhile_append_of_stop (fun c => !isQuote c) _ [] all (by simp)
  rw [List.append_nil] at taken
  simp only [moduleContext?, taken, List.reverse_reverse]
  exact if_neg (Nat.not_lt.mpr (Nat.le_succ _))

/-- The text behind the last quotation mark in front of the cursor is asked for, unless the line begins
with this mark. -/
theorem moduleContext?_append {line front text : List Char} {mark : Char} {column : Nat}
    (shape : line.take column = front ++ mark :: text) (quote : isQuote mark = true)
    (plain : ∀ c ∈ text, isQuote c = false) :
    moduleContext? line column = if front = [] then none else
      some (.module (String.ofList text) (front.length + 1) (line.take column).length) := by
  have length : (front ++ mark :: text).length - text.length = front.length + 1 := by
    simp only [List.length_append, List.length_cons]
    omega
  simp only [moduleContext?, shape, takeWhile_reverse_append quote plain, length]
  cases front with
  | nil => simp
  | cons c front =>
      have long : text.length + 1 < (c :: front ++ mark :: text).length := by
        simp only [List.length_append, List.length_cons]
        omega
      rw [if_pos long, if_neg (by simp)]

/-- A module is asked for by what stands behind the last quotation mark in front of the cursor, unless
the line begins with this mark. -/
theorem completionContext?_eq_module_iff {line : List Char} {column start stop : Nat} {query : String} :
    completionContext? line column = some (.module query start stop) ↔
      ReadsLikeImport line ∧
        ∃ front mark, line.take column = front ++ mark :: query.toList ∧ front ≠ [] ∧
          isQuote mark = true ∧ (∀ c ∈ query.toList, isQuote c = false) ∧
          start = front.length + 1 ∧ stop = (line.take column).length := by
  constructor
  · intro asked
    rw [completionContext?] at asked
    split at asked
    · rename_i reads
      refine ⟨Bool.and_eq_true_iff.mp reads, ?_⟩
      rcases forall_or_exists_quote (line.take column) with quoteless |
        ⟨front, mark, text, shape, quote, plain⟩
      · rw [moduleContext?_of_plain quoteless] at asked
        simp at asked
      · rw [moduleContext?_append shape quote plain, Option.ite_none_left_eq_some,
          Option.some.injEq] at asked
        obtain ⟨filled, same⟩ := asked
        obtain ⟨rfl, rfl, rfl⟩ := CompletionContext.module.inj same
        rw [String.toList_ofList]
        exact ⟨front, mark, shape, filled, quote, plain, rfl, rfl⟩
    · rw [symbolContext?] at asked
      split at asked <;> simp at asked
  · rintro ⟨reads, front, mark, shape, filled, quote, plain, rfl, rfl⟩
    rw [completionContext?, if_pos (Bool.and_eq_true_iff.mpr reads),
      moduleContext?_append shape quote plain, if_neg filled, String.ofList_toList]

/-- The cursor stands in an open literal of which `query` was read, and `query` goes from the character
`start` of the line to the cursor. -/
structure CompletesLiteral (line : List Char) (column : Nat) (query : String) (start stop : Nat) :
    Prop where
  literal : ∃ mark, OpenLiteral.behind (line.take column) = some ⟨mark, query.toList⟩
  start : start + query.toList.length = stop
  stop : stop = (line.take column).length

/-- A module is completed in a literal exactly when the last quotation mark in front of the cursor opens
one. And on a line that reads like an import, the literal at the cursor is completed exactly when no
quotation mark of the other kind was read in it and it does not begin the line. -/
theorem completionContext?_in_literal (line : List Char) (column : Nat) :
    (∀ query start stop, completionContext? line column = some (.module query start stop) →
      (CompletesLiteral line column query start stop ↔
        OpenLiteral.behind (line.take (start - 1)) = none)) ∧
    (ReadsLikeImport line →
      ((∃ query start stop, completionContext? line column = some (.module query start stop) ∧
          CompletesLiteral line column query start stop) ↔
        ∃ literal, OpenLiteral.behind (line.take column) = some literal ∧
          (∀ c ∈ literal.inside, isQuote c = false) ∧
          literal.inside.length + 1 < (line.take column).length)) := by
  constructor
  · intro query start stop asked
    rcases completionContext?_eq_module_iff.mp asked with
      ⟨-, front, mark, shape, -, quote, plain, rfl, rfl⟩
    have before : line.take front.length = front := by
      rw [← List.take_append_drop column line, shape, List.append_assoc, List.take_left]
    rw [Nat.add_sub_cancel, before, ← OpenLiteral.behind_append_quote quote plain, ← shape]
    constructor
    · exact CompletesLiteral.literal
    · intro literal
      refine ⟨literal, ?_, rfl⟩
      rw [shape, List.length_append, List.length_cons]
      omega
  · intro reads
    constructor
    · rintro ⟨query, start, stop, asked, ⟨mark, literal⟩, -, -⟩
      rcases completionContext?_eq_module_iff.mp asked with
        ⟨-, front, _, shape, filled, -, plain, -, -⟩
      refine ⟨_, literal, plain, ?_⟩
      have positive := List.length_pos_iff.mpr filled
      change query.toList.length + 1 < _
      rw [shape, List.length_append, List.length_cons]
      omega
    · rintro ⟨⟨mark, inside⟩, literal, plain, long⟩
      rcases OpenLiteral.behind_eq_some_iff.mp literal with ⟨front, shape, -, quote, -⟩
      have filled : front ≠ [] := by
        rintro rfl
        simp [shape] at long
      refine ⟨String.ofList inside, front.length + 1, (line.take column).length, ?_, ?_, ?_, rfl⟩
      · apply completionContext?_eq_module_iff.mpr
        rw [String.toList_ofList]
        exact ⟨reads, front, mark, shape, filled, quote, plain, rfl, rfl⟩
      · rw [String.toList_ofList]
        exact ⟨mark, literal⟩
      · rw [String.toList_ofList, shape, List.length_append, List.length_cons]
        change front.length + 1 + inside.length = front.length + (inside.length + 1)
        omega

/-- A specifier that is half typed is completed up to the cursor. -/
theorem completionContext?_in_literal_of_half_typed :
    completionContext? "import \x7b A \x7d from \"./ut".toList 23 = some (.module "./ut" 19 23) ∧
      CompletesLiteral "import \x7b A \x7d from \"./ut".toList 23 "./ut" 19 23 := by
  have asked : completionContext? "import \x7b A \x7d from \"./ut".toList 23 =
      some (.module "./ut" 19 23) := by decide
  exact ⟨asked, ((completionContext?_in_literal _ 23).1 _ _ _ asked).mpr (by decide)⟩

/-- Behind a closed literal, a module is asked for although no literal is open. -/
theorem completionContext?_behind_literal :
    completionContext? "import \x7b A \x7d from \"./a\";".toList 23 = some (.module "" 23 23) ∧
      ¬CompletesLiteral "import \x7b A \x7d from \"./a\";".toList 23 "" 23 23 := by
  refine ⟨by decide, ?_⟩
  rintro ⟨⟨mark, literal⟩, -, -⟩
  have closed : OpenLiteral.behind ("import \x7b A \x7d from \"./a\";".toList.take 23) = none := by
    decide
  rw [closed] at literal
  simp at literal

end AutoImport
