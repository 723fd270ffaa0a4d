import AutoImport.Proofs.Text.Search
import AutoImport.Toml.Number

/-!
# Whole numbers that are read back

A number written in base ten is read as that number up to the end of its line, and as nothing else: it
begins no date, no time and no number with a fraction.
-/

namespace AutoImport.Toml

open Text

/-! ## The digits of a number -/

theorem digitValue_of_isDigit {c : Char} (digit : c.isDigit = true) :
    digitValue c = c.toNat - '0'.toNat := by
  rw [digitValue, if_pos digit]

theorem numberOf_toDigits (number : Nat) : numberOf 10 (Nat.toDigits 10 number) = number := by
  have digits : ∀ c ∈ Nat.toDigits 10 number, digitValue c = c.toNat - '0'.toNat :=
    fun c member => digitValue_of_isDigit (Nat.isDigit_of_mem_toDigits (by decide) (by decide) member)
  have same (text : List Char) (plain : ∀ c ∈ text, digitValue c = c.toNat - '0'.toNat)
      (start : Nat) : text.foldl (fun sum c => 10 * sum + digitValue c) start =
        Nat.ofDigitChars 10 text start := by
    induction text generalizing start with
    | nil => rfl
    | cons c text ih =>
        rcases List.forall_mem_cons.mp plain with ⟨first, rest⟩
        rw [List.foldl_cons, first, ih rest]
        rfl
  rw [numberOf, same _ digits]
  exact Nat.ofDigitChars_toDigits (by decide) (by decide)

theorem head?_toDigits_ne_zero {number : Nat} (positive : 0 < number) :
    (Nat.toDigits 10 number).head? ≠ some '0' := by
  induction number using Nat.strongRecOn with
  | _ number ih =>
      rw [Nat.toDigits_eq_if (by decide)]
      split
      · rw [List.head?_cons, ne_eq, Option.some.injEq, Nat.digitChar_eq_zero]
        omega
      · have fewer := ih (number / 10) (by omega) (by omega)
        rw [List.head?_append]
        cases head : (Nat.toDigits 10 (number / 10)).head? with
        | none => exact absurd (List.head?_eq_none_iff.mp head) Nat.toDigits_ne_nil
        | some c => rwa [head] at fewer

theorem readMoreDigits_append {isDigit : Char → Bool} {digits rest : List Char}
    (all : ∀ c ∈ digits, isDigit c = true) (noDash : isDigit '_' = false)
    (stop : ∀ c ∈ rest.head?, isDigit c = false ∧ c ≠ '_') :
    readMoreDigits isDigit (digits ++ rest) = (digits, rest) := by
  induction digits with
  | nil =>
      cases rest with
      | nil => rfl
      | cons c rest =>
          rcases stop c rfl with ⟨other, apart⟩
          rw [List.nil_append, readMoreDigits.eq_3 _ c rest fun _ _ dash => absurd dash apart]
          simp [other]
  | cons c digits ih =>
      rcases List.forall_mem_cons.mp all with ⟨first, later⟩
      have apart : c ≠ '_' := by
        rintro rfl
        simp [first] at noDash
      rw [List.cons_append, readMoreDigits.eq_3 _ c _ fun _ _ dash => absurd dash apart, if_pos first,
        ih later]

/-! ## Reading a written number -/

theorem boundedInteger?_of_lt {number : Nat} (bounded : number < 1 <<< 63) :
    boundedInteger? number = some (.integer number) := by
  have least : -((1 <<< 63 : Nat) : Int) ≤ number :=
    Int.le_trans (Int.neg_nonpos_of_nonneg (Int.natCast_nonneg _)) (Int.natCast_nonneg _)
  have most : (number : Int) < (1 <<< 63 : Nat) := Int.ofNat_lt.mpr bounded
  unfold boundedInteger?
  simp only [least, most, decide_true, Bool.and_self, reduceIte]

section Written

variable {digits rest : List Char} (all : ∀ c ∈ digits, c.isDigit = true)
include all

/-- The first digits of a number at the end of a line are followed by a digit or by the end. -/
theorem dropPrefix?_after_field {mark : Char} (other : mark.isDigit = false) (feed : mark ≠ '\n')
    {width least most value : Nat} {after : List Char}
    (read : readField? width least most (digits ++ '\n' :: rest) = some (value, after)) :
    dropPrefix? [mark] after = none := by
  rw [readField?] at read
  split at read
  · rename_i field
    simp only [Bool.and_eq_true, beq_iff_eq, List.all_eq_true] at field
    obtain ⟨-, rfl⟩ := Prod.mk.inj (Option.some.inj read)
    have short : width ≤ digits.length := by
      refine Nat.not_lt.mp fun long => ?_
      obtain ⟨more, positive⟩ : ∃ more, width - digits.length = more + 1 :=
        ⟨width - digits.length - 1, by omega⟩
      have member : '\n' ∈ (digits ++ '\n' :: rest).take width := by
        rw [List.take_append, positive, List.take_succ_cons]
        exact List.mem_append_right _ List.mem_cons_self
      exact absurd (field.1.1.2 '\n' member) (by decide)
    rw [List.drop_append_of_le_length short]
    cases left : digits.drop width with
    | nil => simp [dropPrefix?, feed]
    | cons c more =>
        have digit : c.isDigit = true := all c (List.mem_of_mem_drop (left ▸ List.mem_cons_self))
        have apart : mark ≠ c := by
          rintro rfl
          simp [digit] at other
        simp [dropPrefix?, apart]
  · simp at read

theorem readMoment?_digits : readMoment? (digits ++ '\n' :: rest) = none := by
  have noDate : afterDate? (digits ++ '\n' :: rest) = none := by
    rw [Option.eq_none_iff_forall_ne_some]
    intro after found
    rcases Option.bind_eq_some_iff.mp found with ⟨⟨year, more⟩, field, found⟩
    have noDash := dropPrefix?_after_field all (by decide : '-'.isDigit = false) (by decide) field
    simp [noDash] at found
  have noTime : afterTime? (digits ++ '\n' :: rest) = none := by
    rw [Option.eq_none_iff_forall_ne_some]
    intro after found
    rcases Option.bind_eq_some_iff.mp found with ⟨⟨hour, more⟩, field, found⟩
    have noColon := dropPrefix?_after_field all (by decide : ':'.isDigit = false) (by decide) field
    simp [noColon] at found
  rw [readMoment?, noDate, noTime]
  rfl

/-- Digits without a needless zero are read to the end of their line. -/
theorem readWhole?_digits (nonempty : digits ≠ []) (plain : digits.head? = some '0' → digits = ['0']) :
    readWhole? (digits ++ '\n' :: rest) = some (digits, '\n' :: rest) := by
  obtain ⟨c, more, rfl⟩ := List.exists_cons_of_ne_nil nonempty
  rcases List.forall_mem_cons.mp all with ⟨first, later⟩
  by_cases zero : c = '0'
  · subst zero
    obtain rfl : more = [] := by simpa using plain rfl
    rfl
  · rw [List.cons_append, readWhole?.eq_2 _ fun _ begins => zero (List.cons.inj begins).1, readDigits?,
      if_pos first, readMoreDigits_append later (by decide) (by rintro d ⟨⟩; decide)]

theorem readSign_digits (nonempty : digits ≠ []) :
    readSign (digits ++ '\n' :: rest) = (false, digits ++ '\n' :: rest) := by
  obtain ⟨c, more, rfl⟩ := List.exists_cons_of_ne_nil nonempty
  have digit := all c List.mem_cons_self
  rw [List.cons_append]
  unfold readSign
  split
  · rename_i begins
    rw [(List.cons.inj begins).1] at digit
    exact absurd digit (by decide)
  · rename_i begins
    rw [(List.cons.inj begins).1] at digit
    exact absurd digit (by decide)
  · rfl

theorem readReal?_digits (nonempty : digits ≠ []) (plain : digits.head? = some '0' → digits = ['0']) :
    readReal? (digits ++ '\n' :: rest) = none := by
  have noWord {first : Char} (word : List Char) (letter : first.isDigit = false) :
      dropPrefix? (first :: word) (digits ++ '\n' :: rest) = none := by
    obtain ⟨c, more, rfl⟩ := List.exists_cons_of_ne_nil nonempty
    have apart : first ≠ c := by
      rintro rfl
      simp [all first List.mem_cons_self] at letter
    simp [dropPrefix?, apart]
  have noExponent : readExponent? ('\n' :: rest) = none := by simp [readExponent?]
  have noFraction : readFraction? ('\n' :: rest) = none := by simp [readFraction?]
  simp only [readReal?, readSign_digits all nonempty, noWord _ (by decide : 'i'.isDigit = false),
    noWord _ (by decide : 'n'.isDigit = false), readWhole?_digits all nonempty plain, Option.bind_eq_bind,
    Option.bind_some, noFraction, noExponent, Option.map_none, Option.getD_none, Option.isNone_none,
    Bool.and_self, reduceIte]

theorem readInteger?_digits (nonempty : digits ≠ []) (plain : digits.head? = some '0' → digits = ['0'])
    (bounded : numberOf 10 digits < 1 <<< 63) :
    readInteger? (digits ++ '\n' :: rest) = some (.integer (numberOf 10 digits), '\n' :: rest) := by
  have other (mark : Char) (feed : mark ≠ '\n') (more : List Char) :
      digits ++ '\n' :: rest ≠ '0' :: mark :: more := by
    intro same
    obtain ⟨c, later, rfl⟩ := List.exists_cons_of_ne_nil nonempty
    obtain ⟨rfl, behind⟩ := List.cons.inj same
    obtain rfl : later = [] := by simpa using plain rfl
    exact feed (List.cons.inj behind).1.symm
  rw [readInteger?.eq_4 _ (other 'x' (by decide)) (other 'o' (by decide)) (other 'b' (by decide)),
    readSign_digits all nonempty]
  refine Option.bind_eq_some_iff.mpr ⟨_, readWhole?_digits all nonempty plain, ?_⟩
  exact Option.bind_eq_some_iff.mpr ⟨_, boundedInteger?_of_lt bounded, rfl⟩

end Written

/-- A written number is read back. -/
theorem readNumber?_toDigits {number : Nat} (bounded : number < 1 <<< 63) (rest : List Char) :
    readNumber? (Nat.toDigits 10 number ++ '\n' :: rest) = some (.integer number, '\n' :: rest) := by
  have all : ∀ c ∈ Nat.toDigits 10 number, c.isDigit = true :=
    fun c member => Nat.isDigit_of_mem_toDigits (by decide) (by decide) member
  have plain : (Nat.toDigits 10 number).head? = some '0' → Nat.toDigits 10 number = ['0'] := by
    intro leading
    by_cases zero : number = 0
    · rw [zero]
      rfl
    · exact absurd leading (head?_toDigits_ne_zero (Nat.pos_of_ne_zero zero))
  have whole : readInteger? (Nat.toDigits 10 number ++ '\n' :: rest) = _ :=
    readInteger?_digits all Nat.toDigits_ne_nil plain (by rwa [numberOf_toDigits])
  rw [readNumber?, readMoment?_digits all, readReal?_digits all Nat.toDigits_ne_nil plain, whole,
    numberOf_toDigits]
  rfl

end AutoImport.Toml
