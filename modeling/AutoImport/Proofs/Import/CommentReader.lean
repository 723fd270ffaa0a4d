import AutoImport.Proofs.Import.Comment
import AutoImport.Proofs.Text.Line
import Mathlib.Data.List.Induction

/-!
# Texts of comments

A reader goes through a text of nothing but blanks and comments and stops at code. What it is inside of
is known line by line.
-/

namespace AutoImport

open Text

/-! ## Reading comments -/

/-- Where a reader is behind a text of blanks and comments. There is no such place behind code. -/
def readComments : CommentState → List Char → Option CommentState
  | state, [] => some state
  | .code, '/' :: '/' :: text => readComments .line text
  | .code, '/' :: '*' :: text => readComments .block text
  | .code, c :: text => if isBlank c then readComments .code text else none
  | .line, c :: text => readComments (if c == '\n' then .code else .line) text
  | .block, '*' :: '/' :: text => readComments .code text
  | .block, _ :: text => readComments .block text

/-- What follows the first `*/` of a text. -/
def behindClose? : List Char → Option (List Char)
  | '*' :: '/' :: text => some text
  | _ :: text => behindClose? text
  | [] => none

/-- A line feed ends a line comment. -/
def afterFeed : CommentState → CommentState
  | .block => .block
  | _ => .code

theorem readComments_code_cons {c : Char} {text : List Char}
    (apart : c = '/' → text.head? ≠ some '/' ∧ text.head? ≠ some '*') :
    readComments .code (c :: text) = if isBlank c then readComments .code text else none := by
  cases text with
  | nil => simp [readComments]
  | cons d text =>
      rw [readComments]
      · rintro more rfl shape
        simp [shape] at apart
      · rintro more rfl shape
        simp [shape] at apart

theorem readComments_block_cons {c : Char} {text : List Char}
    (apart : c = '*' → text.head? ≠ some '/') :
    readComments .block (c :: text) = readComments .block text := by
  cases text with
  | nil => simp [readComments]
  | cons d text =>
      rw [readComments]
      rintro more rfl shape
      simp [shape] at apart

theorem head?_append_feed {c : Char} {front : List Char} (back : List Char) (ink : '\n' ≠ c)
    (apart : front.head? ≠ some c) : (front ++ '\n' :: back).head? ≠ some c := by
  cases front with
  | nil => simpa using ink
  | cons d front => exact apart

/-- A text is read line by line. -/
theorem readComments_append_feed (state : CommentState) (front back : List Char) :
    readComments state (front ++ '\n' :: back) =
      (readComments state front).bind fun reached => readComments (afterFeed reached) back := by
  fun_induction readComments state front with
  | case1 state =>
      cases state with
      | code =>
          rw [List.nil_append, readComments_code_cons (by simp)]
          rfl
      | line => rfl
      | block =>
          rw [List.nil_append, readComments_block_cons (by simp)]
          rfl
  | case2 text ih => exact ih
  | case3 text ih => exact ih
  | case4 c text noLine noBlock blank ih =>
      have apart : c = '/' → (text ++ '\n' :: back).head? ≠ some '/' ∧
          (text ++ '\n' :: back).head? ≠ some '*' := by
        rintro rfl
        exact absurd blank (by decide)
      rw [List.cons_append, readComments_code_cons apart, if_pos blank, ih]
  | case5 c text noLine noBlock ink =>
      have apart : c = '/' → (text ++ '\n' :: back).head? ≠ some '/' ∧
          (text ++ '\n' :: back).head? ≠ some '*' := by
        rintro rfl
        constructor <;> apply head?_append_feed back (by decide) <;> intro head <;>
          rcases List.head?_eq_some_iff.mp head with ⟨more, rfl⟩
        · exact noLine more rfl rfl
        · exact noBlock more rfl rfl
      rw [List.cons_append, readComments_code_cons apart, if_neg ink]
      rfl
  | case6 c text ih =>
      rw [List.cons_append, readComments]
      exact ih
  | case7 text ih => exact ih
  | case8 c text noClose ih =>
      have apart : c = '*' → (text ++ '\n' :: back).head? ≠ some '/' := by
        rintro rfl
        apply head?_append_feed back (by decide)
        intro head
        rcases List.head?_eq_some_iff.mp head with ⟨more, rfl⟩
        exact noClose more rfl rfl
      rw [List.cons_append, readComments_block_cons apart, ih]

theorem readComments_blank_append {blanks : List Char} (blank : ∀ c ∈ blanks, isBlank c = true)
    (text : List Char) : readComments .code (blanks ++ text) = readComments .code text := by
  induction blanks with
  | nil => rfl
  | cons c blanks ih =>
      have blankHere := blank c List.mem_cons_self
      have apart : c = '/' → (blanks ++ text).head? ≠ some '/' ∧ (blanks ++ text).head? ≠ some '*' := by
        rintro rfl
        exact absurd blankHere (by decide)
      rw [List.cons_append, readComments_code_cons apart, if_pos blankHere,
        ih fun d member => blank d (List.mem_cons_of_mem _ member)]

theorem readComments_line {text : List Char} (oneLine : '\n' ∉ text) :
    readComments .line text = some .line := by
  induction text with
  | nil => rfl
  | cons c text ih =>
      have other : (c == '\n') = false :=
        beq_eq_false_iff_ne.mpr (List.ne_of_not_mem_cons oneLine).symm
      rw [readComments, other]
      exact ih (List.not_mem_of_not_mem_cons oneLine)

/-- A comment is read up to its first `*/`. -/
theorem readComments_block (text : List Char) :
    readComments .block text =
      match behindClose? text with
      | none => some .block
      | some rest => readComments .code rest := by
  fun_induction behindClose? text with
  | case1 text => rfl
  | case2 c text noClose ih =>
      have apart : c = '*' → text.head? ≠ some '/' := by
        rintro rfl head
        rcases List.head?_eq_some_iff.mp head with ⟨more, rfl⟩
        exact noClose more rfl rfl
      rw [readComments_block_cons apart, ih]
  | case3 => rfl

/-! ## Where a comment is closed -/

theorem contains_close_eq (text : List Char) :
    contains ['*', '/'] text = (behindClose? text).isSome := by
  fun_induction behindClose? text with
  | case1 text => rfl
  | case2 c text noClose ih =>
      have begins : startsWith ['*', '/'] (c :: text) = false := by
        rw [Bool.eq_false_iff, ne_eq, startsWith_iff]
        rintro ⟨rest, shape⟩
        rcases List.cons.inj shape with ⟨rfl, rfl⟩
        exact noClose rest rfl rfl
      rw [contains, begins, Bool.false_or, ih]
  | case3 => rfl

theorem behindClose?_blank_append {blanks : List Char} (blank : ∀ c ∈ blanks, isBlank c = true)
    (text : List Char) : behindClose? (blanks ++ text) = behindClose? text := by
  induction blanks with
  | nil => rfl
  | cons c blanks ih =>
      have blankHere := blank c List.mem_cons_self
      rw [List.cons_append, behindClose?, ih fun d member => blank d (List.mem_cons_of_mem _ member)]
      rintro rest rfl
      exact absurd blankHere (by decide)

theorem contains_close_append_blank {blanks : List Char} (blank : ∀ c ∈ blanks, isBlank c = true)
    (text : List Char) : contains ['*', '/'] (text ++ blanks) = contains ['*', '/'] text := by
  have ink : ∀ c ∈ ['*', '/'], isBlank c = false := isBlank_eq_false_of_all (by decide)
  induction text with
  | nil =>
      have unclosed := behindClose?_blank_append blank []
      rw [List.append_nil] at unclosed
      rw [List.nil_append, contains_close_eq, unclosed]
      rfl
  | cons c text ih =>
      rw [List.cons_append, contains, contains, ih, ← List.cons_append, startsWith_append_blank ink blank]

theorem isSome_behindClose?_star (content : List Char) :
    (behindClose? ('*' :: content)).isSome =
      (startsWith ['/'] content || (behindClose? content).isSome) := by
  cases content with
  | nil => rfl
  | cons c content =>
      by_cases slash : c = '/'
      · rw [slash]
        rfl
      · have begins : startsWith ['/'] (c :: content) = false := by
          simp [startsWith, dropPrefix?, Ne.symm slash]
        rw [behindClose?, begins, Bool.false_or]
        rintro rest - shape
        exact slash (List.cons.inj shape).1

theorem contains_close_opening (content : List Char) :
    contains ['*', '/'] ('/' :: '*' :: content) =
      (startsWith ['/'] content || contains ['*', '/'] content) := by
  have inside : behindClose? ('/' :: '*' :: content) = behindClose? ('*' :: content) := by
    rw [behindClose?]
    simp
  rw [contains_close_eq, inside, isSome_behindClose?_star, contains_close_eq]

theorem behindClose?_trimStart (line : List Char) :
    behindClose? line = behindClose? (trimStart line) := by
  rcases exists_trim_append_eq line with ⟨front, back, whole, -, frontBlank, -⟩
  conv => lhs; rw [whole]
  exact behindClose?_blank_append frontBlank _

/-- What a line is trimmed by takes no part in comments. -/
theorem contains_close_trim (line : List Char) :
    contains ['*', '/'] (trim line) = (behindClose? line).isSome := by
  rcases exists_trim_append_eq line with ⟨front, back, -, shape, -, backBlank⟩
  rw [behindClose?_trimStart, ← contains_close_eq, shape, contains_close_append_blank backBlank]

theorem readComments_trimStart (line : List Char) :
    readComments .code line = readComments .code (trimStart line) := by
  rcases exists_trim_append_eq line with ⟨front, back, whole, -, frontBlank, -⟩
  conv => lhs; rw [whole]
  exact readComments_blank_append frontBlank _

theorem readComments_lineComment {text : List Char} (oneLine : '\n' ∉ text.dropLast) :
    readComments .line text = some .code ∨ readComments .line text = some .line := by
  cases text using List.reverseRecOn with
  | nil => exact .inr rfl
  | append_singleton ink c =>
      rw [List.dropLast_concat] at oneLine
      by_cases feed : c = '\n'
      · left
        rw [feed, readComments_append_feed, readComments_line oneLine]
        rfl
      · right
        apply readComments_line
        simpa [eq_comm] using And.intro oneLine feed

end AutoImport
