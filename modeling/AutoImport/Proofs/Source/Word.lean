import AutoImport.Proofs.Import.Comment
import AutoImport.Source.Lexical

/-!
# Words and strings of a source file

The tokens that names are written with. A reader of a word takes up the gap in front of the word and the
word itself, and what it takes up is the same text in any place.
-/

namespace AutoImport.Source

open Text

/-! ## Gaps -/

/-- How an escape names a character: by four hexadecimal digits, or by any number of them in braces. -/
inductive EscapeDigits : List Char → Prop where
  | four {digits : List Char} (count : digits.length = 4) (hex : ∀ c ∈ digits, isHexDigit c = true) :
      EscapeDigits digits
  | braced {digits : List Char} (filled : digits ≠ []) (hex : ∀ c ∈ digits, isHexDigit c = true) :
      EscapeDigits ('{' :: (digits ++ ['}']))

/-- Characters and escapes that a word goes on with. -/
inductive WordRun : List Char → Prop where
  | nil : WordRun []
  | char {c : Char} {rest : List Char} (isChar : isWordChar c = true) (run : WordRun rest) :
      WordRun (c :: rest)
  | escape {digits rest : List Char} (named : EscapeDigits digits) (run : WordRun rest) :
      WordRun ('\\' :: 'u' :: (digits ++ rest))

/-- An identifier as it is spelled in a source file. -/
structure IsWord (text : List Char) : Prop where
  filled : text ≠ []
  run : WordRun text
  noDigit : ∀ c ∈ text.head?, c.isDigit = false

/-- The letters and the digits are in three ranges. -/
theorem isAlphanum_iff_toNat {c : Char} :
    c.isAlphanum = true ↔
      ((65 ≤ c.toNat ∧ c.toNat ≤ 90) ∨ (97 ≤ c.toNat ∧ c.toNat ≤ 122)) ∨
        (48 ≤ c.toNat ∧ c.toNat ≤ 57) := by
  have upper : c.isUpper = true ↔ 65 ≤ c.toNat ∧ c.toNat ≤ 90 := decide_eq_true_iff
  have lower : c.isLower = true ↔ 97 ≤ c.toNat ∧ c.toNat ≤ 122 :=
    Bool.and_eq_true_iff.trans (and_congr decide_eq_true_iff decide_eq_true_iff)
  change ((c.isUpper || c.isLower) || c.isDigit) = true ↔ _
  rw [Bool.or_eq_true, Bool.or_eq_true, upper, lower, Char.isDigit_iff_toNat]
  rfl

theorem isWordChar_of_isHexDigit {c : Char} (hex : isHexDigit c = true) : isWordChar c = true := by
  have alphanum : c.isAlphanum = true := by
    rw [isAlphanum_iff_toNat]
    simp only [isHexDigit, Bool.or_eq_true, Bool.and_eq_true, decide_eq_true_eq,
      Char.isDigit_iff_toNat] at hex
    rcases hex with (digit | lower) | upper
    · exact .inr digit
    · change 97 ≤ c.toNat ∧ c.toNat ≤ 102 at lower
      omega
    · change 65 ≤ c.toNat ∧ c.toNat ≤ 70 at upper
      omega
  simp [isWordChar, alphanum]

/-- Which characters a word is made of. -/
theorem WordRun.mem {text : List Char} (run : WordRun text) :
    ∀ c ∈ text, isWordChar c = true ∨ c = '\\' ∨ c = '{' ∨ c = '}' := by
  induction run with
  | nil => simp
  | char isChar _ ih =>
      rintro d (_ | ⟨_, member⟩)
      · exact .inl isChar
      · exact ih d member
  | @escape digits rest named _ ih =>
      have inDigits : ∀ d ∈ digits, isWordChar d = true ∨ d = '\\' ∨ d = '{' ∨ d = '}' := by
        intro d member
        cases named with
        | four _ hex => exact .inl (isWordChar_of_isHexDigit (hex d member))
        | @braced digits _ hex =>
            rw [List.mem_cons, List.mem_append, List.mem_singleton] at member
            rcases member with rfl | inside | rfl
            · simp
            · exact .inl (isWordChar_of_isHexDigit (hex d inside))
            · simp
      intro d member
      rw [List.mem_cons, List.mem_cons, List.mem_append] at member
      rcases member with rfl | rfl | here | later
      · simp
      · exact .inl (by decide)
      · exact inDigits d here
      · exact ih d later

/-- No mark stands in a word, apart from those of its escapes. -/
theorem IsWord.not_mem {text : List Char} (word : IsWord text) {mark : Char}
    (other : isWordChar mark = false) (noEscape : mark ≠ '\\' ∧ mark ≠ '{' ∧ mark ≠ '}') :
    mark ∉ text := by
  intro member
  rcases word.run.mem mark member with isChar | same
  · simp [other] at isChar
  · rcases noEscape with ⟨noSlash, noOpen, noClose⟩
    simp [noSlash, noOpen, noClose] at same

/-- A string as it is spelled in a source file. -/
def IsQuoted (text : List Char) : Prop :=
  ∃ mark body, isQuote mark = true ∧ text = mark :: (body ++ [mark])

end AutoImport.Source
