import AutoImport.Proofs.Text.Search
import AutoImport.Toml.Quoted

/-!
# Strings that are read back

Whatever a text holds, `writeString` shows it in a way that `readString?` reads as this text, as long as no
quote follows. In strings of several lines the quotes are the difficult part: up to two of them stand for
themselves, also in front of the three that end the string.
-/

namespace AutoImport.Toml

open Text

/-! ## Single characters -/

theorem fourDigits_spec : ∀ number < 128, (fourDigits number).length = 4 ∧ '\r' ∉ fourDigits number ∧
    numbered? (fourDigits number) = some (Char.ofNat number) := by
  decide +kernel

/-- How a character stands in double quotes. -/
inductive WrittenChar (severalLines : Bool) (c : Char) : List Char → Prop where
  | escaped (letter : Char) (reads : escaped? letter = some c) :
      WrittenChar severalLines c ['\\', letter]
  | numbered {a b d e : Char} (reads : numbered? [a, b, d, e] = some c) (plain : '\r' ∉ [a, b, d, e]) :
      WrittenChar severalLines c ['\\', 'u', a, b, d, e]
  | plain (apart : c ≠ '\\') (feed : c ≠ '\r')
      (shown : isShowable c = true ∨ severalLines = true ∧ c = '\n') : WrittenChar severalLines c [c]

/-- A character that may not stand for itself is written by its number. -/
theorem writtenChar_numbered (severalLines : Bool) {c : Char} (hidden : ¬ isShowable c = true) :
    WrittenChar severalLines c (['\\', 'u'] ++ fourDigits c.toNat) := by
  have small : c.toNat < 128 := by
    simp only [isShowable, Bool.or_eq_true, Bool.and_eq_true, decide_eq_true_eq, bne_iff_ne,
      beq_iff_eq, not_or, not_and, Decidable.not_not] at hidden
    omega
  rcases fourDigits_spec c.toNat small with ⟨length, noReturn, reads⟩
  rw [Char.ofNat_toNat] at reads
  obtain ⟨a, b, d, e, shape⟩ : ∃ a b d e, fourDigits c.toNat = [a, b, d, e] := by
    match fourDigits c.toNat, length with
    | [a, b, d, e], _ => exact ⟨a, b, d, e, rfl⟩
  rw [shape] at reads noReturn ⊢
  exact .numbered reads noReturn

theorem writtenChar_writeChar (severalLines : Bool) (c : Char) :
    WrittenChar severalLines c (writeChar severalLines c) := by
  unfold writeChar
  split
  · rename_i same
    exact .escaped 'b' (by rw [eq_of_beq same]; rfl)
  split
  · rename_i same
    exact .escaped 't' (by rw [eq_of_beq same]; rfl)
  split
  · rename_i same
    obtain rfl := eq_of_beq same
    split
    · rename_i lines
      exact .plain (by decide) (by decide) (.inr ⟨lines, rfl⟩)
    · exact .escaped 'n' rfl
  split
  · rename_i same
    exact .escaped 'f' (by rw [eq_of_beq same]; rfl)
  split
  · rename_i same
    exact .escaped 'r' (by rw [eq_of_beq same]; rfl)
  split
  · rename_i same
    exact .escaped '\\' (by rw [eq_of_beq same]; rfl)
  rename_i notReturn notBackslash
  split
  · rename_i shown
    exact .plain (by simpa using notBackslash) (by simpa using notReturn) (.inl shown)
  · rename_i hidden
    exact writtenChar_numbered severalLines hidden

theorem readBasic_plain {c : Char} (quote : c ≠ '"') (apart : c ≠ '\\') (shown : isShowable c = true)
    (rest : List Char) : readBasic (c :: rest) = prepend? (some c) (readBasic rest) := by
  rw [readBasic.eq_6 c rest quote (fun _ _ _ _ _ same => absurd same apart)
    (fun _ _ _ _ _ _ _ _ _ same => absurd same apart) (fun _ _ same => absurd same apart)]
  simp [shown, apart]

theorem readBasic_escaped {letter c : Char} (reads : escaped? letter = some c) (rest : List Char) :
    readBasic ('\\' :: letter :: rest) = prepend? (some c) (readBasic rest) := by
  have known {other : Char} (unknown : escaped? other = none) : letter ≠ other := by
    rintro rfl
    simp [unknown] at reads
  rw [readBasic.eq_5 letter rest (fun _ _ _ _ _ same => absurd same (known rfl))
    (fun _ _ _ _ _ _ _ _ _ same => absurd same (known rfl)), reads]

theorem readLongBasic_plain {c : Char} (quote : c ≠ '"') (apart : c ≠ '\\')
    (shown : isShowableInLines c = true) (rest : List Char) :
    readLongBasic false (c :: rest) = prepend? (some c) (readLongBasic false rest) := by
  rw [readLongBasic.eq_11 false c rest (fun _ same => absurd same quote) (fun _ same => absurd same quote)
    (fun _ same => absurd same quote) (fun _ _ _ _ _ same => absurd same apart)
    (fun _ _ _ _ _ _ _ _ _ same => absurd same apart) (fun _ _ same => absurd same apart)
    (fun joining => absurd joining (by decide)) (fun joining => absurd joining (by decide))
    (fun joining => absurd joining (by decide))]
  simp [shown, apart]

theorem readLongBasic_escaped {letter c : Char} (reads : escaped? letter = some c) (rest : List Char) :
    readLongBasic false ('\\' :: letter :: rest) = prepend? (some c) (readLongBasic false rest) := by
  have known {other : Char} (unknown : escaped? other = none) : letter ≠ other := by
    rintro rfl
    simp [unknown] at reads
  have stays : endsLine (letter :: rest) = false := by
    have ink : isInlineBlank letter = false := by
      simp [isInlineBlank, known (rfl : escaped? ' ' = none), known (rfl : escaped? '\t' = none)]
    have feed : letter ≠ '\n' := known rfl
    simp [endsLine, ink, feed]
  rw [readLongBasic.eq_10 false letter rest (fun _ _ _ _ _ same => absurd same (known rfl))
    (fun _ _ _ _ _ _ _ _ _ same => absurd same (known rfl)), stays, reads]
  rfl

theorem readBasic_writeChar {c : Char} (quote : c ≠ '"') (rest : List Char) :
    readBasic (writeChar false c ++ rest) = prepend? (some c) (readBasic rest) := by
  have written := writtenChar_writeChar false c
  generalize writeChar false c = chars at written
  cases written with
  | escaped letter reads => exact readBasic_escaped reads rest
  | numbered reads plain =>
      rw [← reads]
      exact readBasic.eq_3 ..
  | plain apart feed shown => exact readBasic_plain quote apart (by simpa using shown) rest

theorem readLongBasic_writeChar {c : Char} (quote : c ≠ '"') (rest : List Char) :
    readLongBasic false (writeChar true c ++ rest) = prepend? (some c) (readLongBasic false rest) := by
  have written := writtenChar_writeChar true c
  generalize writeChar true c = chars at written
  cases written with
  | escaped letter reads => exact readLongBasic_escaped reads rest
  | numbered reads plain =>
      rw [← reads]
      exact readLongBasic.eq_8 ..
  | plain apart feed shown =>
      refine readLongBasic_plain quote apart ?_ rest
      rcases shown with shown | ⟨-, rfl⟩
      · simp [isShowableInLines, shown]
      · rfl

/-! ## Strings on one line -/

theorem readBasic_writeBasic (text rest : List Char) :
    readBasic (writeBasic false 0 0 text ++ '"' :: rest) = some (text, rest) := by
  induction text with
  | nil => rfl
  | cons c text ih =>
      rw [writeBasic]
      split
      · rename_i quote
        obtain rfl := eq_of_beq quote
        rw [if_neg (Nat.lt_irrefl 0), List.append_assoc]
        change readBasic ('\\' :: '"' :: (writeBasic false 0 0 text ++ '"' :: rest)) = _
        rw [readBasic_escaped rfl, ih]
        rfl
      · rename_i other
        rw [List.append_assoc, readBasic_writeChar (by simpa using other), ih]
        rfl

theorem readLiteral_append {text : List Char} (shown : ∀ c ∈ text, isShowable c = true)
    (plain : '\'' ∉ text) (rest : List Char) : readLiteral (text ++ '\'' :: rest) = some (text, rest) := by
  induction text with
  | nil => rfl
  | cons c text ih =>
      rcases List.forall_mem_cons.mp shown with ⟨first, later⟩
      simp only [List.mem_cons, not_or] at plain
      rw [List.cons_append, readLiteral.eq_3 c _ (Ne.symm plain.1), if_pos first, ih later plain.2]
      rfl

/-! ## Strings of several lines -/

/-- Up to two marks in a row stand for themselves, and three end the string. -/
structure ReadsRuns (mark : Char) (read : List Char → Option (List Char × List Char)) : Prop where
  single : ∀ rest, (∀ more, rest ≠ mark :: mark :: more) →
    read (mark :: rest) = prepend? (some mark) (read rest)
  close : ∀ run ≤ 2, ∀ rest : List Char, rest.head? ≠ some mark →
    read (List.replicate run mark ++ (List.replicate 3 mark ++ rest)) =
      some (List.replicate run mark, rest)

theorem ReadsRuns.run {mark : Char} {read : List Char → Option (List Char × List Char)}
    (reads : ReadsRuns mark read) {run : Nat} (short : run ≤ 2) {body text rest : List Char}
    (ends : body.head? ≠ some mark) (found : read body = some (text, rest)) :
    read (List.replicate run mark ++ body) = some (List.replicate run mark ++ text, rest) := by
  induction run with
  | zero => exact found
  | succ run ih =>
      have few : ∀ more, List.replicate run mark ++ body ≠ mark :: mark :: more := by
        intro more same
        rcases (by omega : run = 0 ∨ run = 1) with rfl | rfl
        · have whole : body = mark :: mark :: more := same
          simp [whole] at ends
        · have whole : body = mark :: more := (List.cons.inj same).2
          simp [whole] at ends
      rw [List.replicate_succ, List.cons_append, reads.single _ few, ih (by omega)]
      rfl

theorem readsRuns_readLongBasic : ReadsRuns '"' (readLongBasic false) where
  single rest few := by
    rw [readLongBasic.eq_11 false '"' rest (fun _ _ same => few _ same) (fun _ _ same => few _ same)
      (fun _ _ same => few _ same) (fun _ _ _ _ _ same => absurd same (by decide))
      (fun _ _ _ _ _ _ _ _ _ same => absurd same (by decide)) (fun _ _ same => absurd same (by decide))
      (fun joining => absurd joining (by decide)) (fun joining => absurd joining (by decide))
      (fun joining => absurd joining (by decide))]
    rfl
  close run short rest ends := by
    have apart (more : List Char) : rest ≠ '"' :: more := by
      rintro rfl
      simp at ends
    rcases (by omega : run = 0 ∨ run = 1 ∨ run = 2) with rfl | rfl | rfl
    · exact readLongBasic.eq_7 false rest (fun _ => apart _) apart
    · exact readLongBasic.eq_6 false rest apart
    · exact readLongBasic.eq_5 false rest

theorem readsRuns_readLongLiteral : ReadsRuns '\'' readLongLiteral where
  single rest few := by
    rw [readLongLiteral.eq_5 '\'' rest (fun _ _ same => few _ same) (fun _ _ same => few _ same)
      (fun _ _ same => few _ same)]
    rfl
  close run short rest ends := by
    have apart (more : List Char) : rest ≠ '\'' :: more := by
      rintro rfl
      simp at ends
    rcases (by omega : run = 0 ∨ run = 1 ∨ run = 2) with rfl | rfl | rfl
    · exact readLongLiteral.eq_4 rest (fun _ => apart _) apart
    · exact readLongLiteral.eq_3 rest apart
    · exact readLongLiteral.eq_2 rest

theorem head?_writeChar_ne_quote {severalLines : Bool} {c : Char} (quote : c ≠ '"') (rest : List Char) :
    (writeChar severalLines c ++ rest).head? ≠ some '"' := by
  have written := writtenChar_writeChar severalLines c
  generalize writeChar severalLines c = chars at written
  cases written with
  | escaped letter reads => simp
  | numbered reads plain => simp
  | plain apart feed shown => simpa using quote

theorem head?_writeBasic_ne_feed {allowed run : Nat} {text rest : List Char}
    (begins : text.head? ≠ some '\n') :
    (writeBasic true allowed run text ++ (List.replicate 3 '"' ++ rest)).head? ≠ some '\n' := by
  cases text with
  | nil => simp [writeBasic, List.replicate_succ]
  | cons c text =>
      rw [writeBasic]
      split
      · split <;> simp
      · have written := writtenChar_writeChar true c
        generalize writeChar true c = chars at written
        cases written with
        | escaped letter reads => simp
        | numbered reads plain => simp
        | plain apart feed shown => simpa using begins

/-- The quotes in front of what is read next are read with it, as they may be the last ones. -/
theorem readLongBasic_writeBasic {run : Nat} (short : run ≤ 2) (text : List Char) {rest : List Char}
    (ends : rest.head? ≠ some '"') :
    readLongBasic false (List.replicate run '"' ++ (writeBasic true 2 run text ++
      (List.replicate 3 '"' ++ rest))) = some (List.replicate run '"' ++ text, rest) := by
  induction text generalizing run with
  | nil =>
      rw [List.append_nil]
      exact readsRuns_readLongBasic.close run short rest ends
  | cons c text ih =>
      rw [writeBasic]
      split
      · rename_i quote
        obtain rfl := eq_of_beq quote
        split
        · rename_i room
          have longer := @ih (run + 1) (by omega)
          rw [List.replicate_succ', List.append_assoc, List.append_assoc] at longer
          exact longer
        · have later := @ih 0 (by omega)
          refine readsRuns_readLongBasic.run short (by simp) ?_
          rw [List.append_assoc]
          refine (readLongBasic_escaped rfl _).trans ?_
          exact congrArg (prepend? (some '"')) later
      · rename_i other
        have quote : c ≠ '"' := by simpa using other
        have later := @ih 0 (by omega)
        rw [List.append_assoc]
        refine readsRuns_readLongBasic.run short (head?_writeChar_ne_quote quote _) ?_
        rw [readLongBasic_writeChar quote]
        exact congrArg (prepend? (some c)) later

theorem readLongLiteral_append {run : Nat} {text : List Char} {rest : List Char}
    (runs : longestRunAfter '\'' run text ≤ 2) (shown : ∀ c ∈ text, isShowableInLines c = true)
    (ends : rest.head? ≠ some '\'') :
    readLongLiteral (List.replicate run '\'' ++ (text ++ (List.replicate 3 '\'' ++ rest))) =
      some (List.replicate run '\'' ++ text, rest) := by
  induction text generalizing run with
  | nil =>
      rw [List.append_nil]
      exact readsRuns_readLongLiteral.close run runs rest ends
  | cons c text ih =>
      rcases List.forall_mem_cons.mp shown with ⟨first, later⟩
      rw [longestRunAfter] at runs
      split at runs
      · rename_i quote
        obtain rfl := eq_of_beq quote
        have longer := ih runs later
        rw [List.replicate_succ', List.append_assoc, List.append_assoc] at longer
        exact longer
      · rename_i other
        have quote : c ≠ '\'' := by simpa using other
        have behind := ih (Nat.le_trans (Nat.le_max_right _ _) runs) later
        have short : run ≤ 2 := Nat.le_trans (Nat.le_max_left _ _) runs
        refine readsRuns_readLongLiteral.run short (by simpa using quote) ?_
        rw [List.cons_append, readLongLiteral.eq_5 c _ (fun _ same => absurd same quote)
          (fun _ same => absurd same quote) (fun _ same => absurd same quote), if_pos first]
        exact congrArg (prepend? (some c)) behind

/-! ## All strings -/

/-- A string of several lines begins with a line feed of its own, and another one not with any. -/
theorem dropFirstLineEnd_append {hasLines : Bool} {body : List Char}
    (begins : hasLines = false → body.head? ≠ some '\n') :
    dropFirstLineEnd ((if hasLines then ['\n'] else []) ++ body) = body := by
  cases hasLines with
  | true => rfl
  | false =>
      have noFeed : dropPrefix? ['\n'] body = none := by
        cases body with
        | nil => rfl
        | cons c body =>
            have apart : '\n' ≠ c := fun same => begins rfl (by rw [same]; rfl)
            simp [dropPrefix?, apart]
      rw [dropFirstLineEnd]
      simp [noFeed]

theorem not_mem_of_longestRun_eq_zero {mark : Char} {text : List Char}
    (absent : longestRun mark text = 0) : mark ∉ text := by
  have positive (run : Nat) (text : List Char) : run ≤ longestRunAfter mark run text := by
    induction text generalizing run with
    | nil => exact Nat.le_refl run
    | cons c text ih =>
        rw [longestRunAfter]
        split
        · exact Nat.le_trans (Nat.le_succ run) (ih (run + 1))
        · exact Nat.le_max_left _ _
  rw [longestRun] at absent
  induction text with
  | nil => simp
  | cons c text ih =>
      rw [longestRunAfter] at absent
      split at absent
      · have begun := positive 1 text
        rw [Nat.zero_add] at absent
        omega
      · rename_i other
        have later := ih (Nat.max_eq_zero_iff.mp absent).2
        simp only [List.mem_cons, not_or]
        exact ⟨fun same => other (by simp [same]), later⟩

theorem readString?_literal {text : List Char} (nonempty : text ≠ [])
    (shown : ∀ c ∈ text, isShowable c = true)
    (plain : '\'' ∉ text) (rest : List Char) :
    readString? (['\''] ++ text ++ ['\''] ++ rest) = some (text, rest) := by
  have read := readLiteral_append shown plain rest
  obtain ⟨c, more, rfl⟩ := List.exists_cons_of_ne_nil nonempty
  simp only [List.mem_cons, not_or] at plain
  rw [List.append_assoc, List.append_assoc, List.singleton_append, List.singleton_append]
  unfold readString?
  split
  · rename_i begins
    exact absurd (List.cons.inj begins).1 (by decide)
  · rename_i begins
    exact absurd (List.cons.inj (List.cons.inj begins).2).1.symm plain.1
  · exact read

section Forms

variable {text rest : List Char} (ends : ∀ c ∈ rest.head?, isQuote c = false)
include ends

theorem head?_ne_of_ends {mark : Char} (quote : isQuote mark = true) : rest.head? ≠ some mark := by
  intro same
  simp [ends mark same] at quote

theorem readString?_short : readString? (['"'] ++ writeBasic false 0 0 text ++ ['"'] ++ rest) =
    some (text, rest) := by
  have plain := readBasic_writeBasic text rest
  rw [List.append_assoc, List.append_assoc, List.singleton_append, List.singleton_append]
  unfold readString?
  split
  · -- Only the empty text is written with two quotes in a row.
    rename_i more begins
    have behind := (List.cons.inj begins).2
    cases text with
    | nil =>
        have third : rest = '"' :: more := (List.cons.inj behind).2
        exact absurd (by rw [third]; rfl) (head?_ne_of_ends ends (by decide : isQuote '"' = true))
    | cons c text =>
        rw [writeBasic] at behind
        split at behind
        · simp at behind
        · rename_i other
          have quote : c ≠ '"' := by simpa using other
          rw [List.append_assoc] at behind
          exact absurd (by rw [behind]; rfl) (head?_writeChar_ne_quote quote _)
  · rename_i more begins
    exact absurd (List.cons.inj begins).1 (by decide)
  · exact plain

theorem readString?_long {hasLines : Bool} (begins : hasLines = false → text.head? ≠ some '\n') :
    readString? (List.replicate 3 '"' ++ (if hasLines then ['\n'] else []) ++ writeBasic true 2 0 text ++
      List.replicate 3 '"' ++ rest) = some (text, rest) := by
  have read := readLongBasic_writeBasic (Nat.zero_le 2) text
    (head?_ne_of_ends ends (by decide : isQuote '"' = true))
  have shape : List.replicate 3 '"' ++ (if hasLines then ['\n'] else []) ++ writeBasic true 2 0 text ++
      List.replicate 3 '"' ++ rest = '"' :: '"' :: '"' :: ((if hasLines then ['\n'] else []) ++
        (writeBasic true 2 0 text ++ (List.replicate 3 '"' ++ rest))) := by
    simp only [List.append_assoc]
    rfl
  rw [shape, readString?, dropFirstLineEnd_append]
  · exact read
  · intro oneLine
    exact head?_writeBasic_ne_feed (begins oneLine)

theorem readString?_longLiteral {hasLines : Bool} (begins : hasLines = false → text.head? ≠ some '\n')
    (runs : longestRun '\'' text ≤ 2) (shown : ∀ c ∈ text, isShowableInLines c = true) :
    readString? (List.replicate 3 '\'' ++ (if hasLines then ['\n'] else []) ++ text ++
      List.replicate 3 '\'' ++ rest) = some (text, rest) := by
  have read := readLongLiteral_append runs shown
    (head?_ne_of_ends ends (by decide : isQuote '\'' = true))
  have shape : List.replicate 3 '\'' ++ (if hasLines then ['\n'] else []) ++ text ++
      List.replicate 3 '\'' ++ rest = '\'' :: '\'' :: '\'' :: ((if hasLines then ['\n'] else []) ++
        (text ++ (List.replicate 3 '\'' ++ rest))) := by
    simp only [List.append_assoc]
    rfl
  rw [shape, readString?, dropFirstLineEnd_append]
  · exact read
  · intro oneLine
    rw [List.head?_append]
    cases head : text.head? with
    | none => simp
    | some c => simpa [head] using begins oneLine

end Forms

/-- The forms in which a text is written. -/
inductive Written (text : List Char) : List Char → Prop where
  | short : Written text (['"'] ++ writeBasic false 0 0 text ++ ['"'])
  | literal (nonempty : text ≠ []) (shown : ∀ c ∈ text, isShowable c = true) (plain : '\'' ∉ text) :
      Written text (['\''] ++ text ++ ['\''])
  | long {hasLines : Bool} (begins : hasLines = false → text.head? ≠ some '\n') :
      Written text (List.replicate 3 '"' ++ (if hasLines then ['\n'] else []) ++
        writeBasic true 2 0 text ++ List.replicate 3 '"')
  | longLiteral {hasLines : Bool} (begins : hasLines = false → text.head? ≠ some '\n')
      (runs : longestRun '\'' text ≤ 2) (shown : ∀ c ∈ text, isShowableInLines c = true) :
      Written text (List.replicate 3 '\'' ++ (if hasLines then ['\n'] else []) ++ text ++
        List.replicate 3 '\'')

theorem written_writeString (text : List Char) : Written text (writeString text) := by
  have begins : text.contains '\n' = false → text.head? ≠ some '\n' := by
    intro oneLine head
    have member := List.mem_of_head? head
    simp [member] at oneLine
  have shownInLines (showable : text.all isShowableInLines = true) :
      ∀ c ∈ text, isShowableInLines c = true := List.all_eq_true.mp showable
  simp only [writeString]
  split
  · exact .short
  rename_i notShort
  split
  · rename_i literal
    simp only [Bool.and_eq_true, beq_iff_eq, Bool.not_eq_true'] at literal
    rcases literal with ⟨⟨showable, noQuote⟩, oneLine⟩
    refine .literal ?_ ?_ (not_mem_of_longestRun_eq_zero noQuote)
    · rintro rfl
      exact absurd (by decide) notShort
    · intro c member
      have shown := shownInLines showable c member
      have apart : c ≠ '\n' := by
        rintro rfl
        simp [member] at oneLine
      simpa [isShowableInLines, apart] using shown
  split
  · exact .long begins
  split
  · rename_i lines
    simp only [Bool.and_eq_true, decide_eq_true_eq] at lines
    exact .longLiteral begins lines.2 (shownInLines lines.1)
  cases hasLines : text.contains '\n' with
  | true => exact .long fun oneLine => absurd oneLine (by decide)
  | false => exact .short

/-- Every text is read back, when no quote follows. -/
theorem readString?_writeString (text : List Char) {rest : List Char}
    (ends : ∀ c ∈ rest.head?, isQuote c = false) :
    readString? (writeString text ++ rest) = some (text, rest) := by
  have written := written_writeString text
  generalize writeString text = chars at written
  cases written with
  | short => exact readString?_short ends
  | literal nonempty shown plain => exact readString?_literal nonempty shown plain rest
  | long begins => exact readString?_long ends begins
  | longLiteral begins runs shown => exact readString?_longLiteral ends begins runs shown

/-! ## The characters of written strings -/

/-- A written string begins with a quote. -/
theorem exists_quote_writeString (text : List Char) :
    ∃ c rest, writeString text = c :: rest ∧ isQuote c = true := by
  have written := written_writeString text
  generalize writeString text = chars at written
  cases written with
  | short => exact ⟨'"', _, rfl, rfl⟩
  | literal nonempty shown plain => exact ⟨'\'', _, rfl, rfl⟩
  | long begins => exact ⟨'"', _, rfl, rfl⟩
  | longLiteral begins runs shown => exact ⟨'\'', _, rfl, rfl⟩

theorem not_mem_writeBasic {severalLines : Bool} {allowed run : Nat} (text : List Char) :
    '\r' ∉ writeBasic severalLines allowed run text := by
  induction text generalizing run with
  | nil => simp [writeBasic]
  | cons c text ih =>
      rw [writeBasic]
      split
      · split <;> simp [ih]
      · have written := writtenChar_writeChar severalLines c
        generalize writeChar severalLines c = chars at written
        cases written with
        | escaped letter reads =>
            have apart : letter ≠ '\r' := by
              rintro rfl
              simp [escaped?] at reads
            simp [ih, Ne.symm apart]
        | numbered reads plain => simpa [ih] using plain
        | plain apart feed shown => simp [ih, Ne.symm feed]

/-- No line of a written string ends with a carriage return. -/
theorem not_mem_writeString (text : List Char) : '\r' ∉ writeString text := by
  have lineEnd (hasLines : Bool) : '\r' ∉ if hasLines then ['\n'] else [] := by
    cases hasLines <;> simp
  have written := written_writeString text
  generalize writeString text = chars at written
  cases written with
  | short => simp [not_mem_writeBasic]
  | literal nonempty shown plain =>
      have inside : '\r' ∉ text := fun member => absurd (shown _ member) (by decide)
      simp [inside]
  | long begins => simp [not_mem_writeBasic, lineEnd]
  | longLiteral begins runs shown =>
      have inside : '\r' ∉ text := fun member => absurd (shown _ member) (by decide)
      simp [inside, lineEnd]

end AutoImport.Toml
