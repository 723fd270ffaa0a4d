import AutoImport.Proofs.Text.Cursor

/-!
# Pieces of a text

How the pieces between separators, and the ends of a text, change when something is put behind it.
-/

namespace AutoImport.Text

/-! ## Containment -/

theorem startsWith_iff {start text : List Char} :
    startsWith start text = true ↔ ∃ rest, text = start ++ rest := by
  simp only [startsWith, Option.isSome_iff_exists, dropPrefix?_eq_some_iff]

theorem dropSuffix?_eq_some_iff {ending text front : List Char} :
    dropSuffix? ending text = some front ↔ text = front ++ ending := by
  simp only [dropSuffix?, Option.map_eq_some_iff, dropPrefix?_eq_some_iff]
  constructor
  · rintro ⟨reversed, shape, rfl⟩
    simpa using congrArg List.reverse shape
  · rintro rfl
    exact ⟨front.reverse, List.reverse_append, List.reverse_reverse front⟩

theorem endsWith_iff {ending text : List Char} :
    endsWith ending text = true ↔ ∃ front, text = front ++ ending := by
  simp only [endsWith, Option.isSome_iff_exists, dropSuffix?_eq_some_iff]

theorem endsWith_singleton_iff {c : Char} {text : List Char} :
    endsWith [c] text = true ↔ text.getLast? = some c := by
  rw [endsWith_iff, List.getLast?_eq_some_iff]

/-- Containment in the sense of the characters around the occurrence. -/
theorem contains_iff {part text : List Char} :
    contains part text = true ↔ ∃ before after, text = before ++ part ++ after := by
  induction text with
  | nil =>
      constructor
      · intro empty
        exact ⟨[], [], by simpa [contains] using empty⟩
      · rintro ⟨before, after, shape⟩
        have empty : part = [] := by
          simp only [List.nil_eq, List.append_eq_nil_iff] at shape
          exact shape.1.2
        simp [contains, empty]
  | cons c text ih =>
      rw [contains, Bool.or_eq_true, startsWith_iff, ih]
      constructor
      · rintro (⟨rest, shape⟩ | ⟨before, after, rfl⟩)
        · exact ⟨[], rest, shape⟩
        · exact ⟨c :: before, after, rfl⟩
      · rintro ⟨before, after, shape⟩
        cases before with
        | nil => exact .inl ⟨after, shape⟩
        | cons d before =>
            obtain ⟨-, rfl⟩ := List.cons.inj shape
            exact .inr ⟨before, after, rfl⟩

/-! ## Trimming -/

theorem dropWhile_append_of_all {test : Char → Bool} {text : List Char}
    (all : ∀ c ∈ text, test c = true) : text.dropWhile test = [] := by
  have dropped : (text ++ []).dropWhile test = [] := List.dropWhile_append_of_pos all
  simpa using dropped

/-- Read from its end, a list without an item has none up to its beginning. -/
theorem bne_of_mem_reverse {α : Type} [BEq α] [LawfulBEq α] {item : α} {items : List α}
    (outside : item ∉ items) : ∀ other ∈ items.reverse, (other != item) = true := by
  intro other member
  have apart : other ≠ item := fun same => outside (same ▸ List.mem_reverse.mp member)
  simpa using apart

theorem trimEnd_append_blank (text : List Char) {blanks : List Char}
    (blank : ∀ c ∈ blanks, isBlank c = true) : trimEnd (text ++ blanks) = trimEnd text := by
  have reversed : ∀ c ∈ blanks.reverse, isBlank c = true := by simpa using blank
  rw [trimEnd, dropEndWhile, List.reverse_append, List.dropWhile_append_of_pos reversed]
  rfl

theorem trim_append_blank (text : List Char) {blanks : List Char}
    (blank : ∀ c ∈ blanks, isBlank c = true) : trim (text ++ blanks) = trim text := by
  by_cases all : ∀ c ∈ text, isBlank c = true
  · have both : ∀ c ∈ text ++ blanks, isBlank c = true := by
      intro c member
      rcases List.mem_append.mp member with left | right
      · exact all c left
      · exact blank c right
    rw [trim, trim, trimStart, trimStart, dropWhile_append_of_all both, dropWhile_append_of_all all]
  · have dropped : (text ++ blanks).dropWhile isBlank = text.dropWhile isBlank ++ blanks := by
      rw [List.dropWhile_append]
      have nonempty : (text.dropWhile isBlank).isEmpty = false := by
        rw [Bool.eq_false_iff, ne_eq, List.isEmpty_iff]
        intro empty
        refine all fun c member => ?_
        rw [← List.takeWhile_append_dropWhile (p := isBlank) (l := text), empty] at member
        exact mem_takeWhile_imp (List.append_nil _ ▸ member)
      simp [nonempty]
    rw [trim, trimStart, dropped, trimEnd_append_blank _ blank]
    rfl

theorem trim_blank {blanks : List Char} (blank : ∀ c ∈ blanks, isBlank c = true) :
    trim blanks = [] := by
  have nothing := trim_append_blank [] blank
  simpa [trim, trimStart, trimEnd, dropEndWhile] using nothing

theorem trim_blank_append {blanks : List Char} (blank : ∀ c ∈ blanks, isBlank c = true)
    (text : List Char) : trim (blanks ++ text) = trim text := by
  rw [trim, trimStart, List.dropWhile_append_of_pos blank]
  rfl

theorem dropWhile_of_stop {test : Char → Bool} {text : List Char}
    (first : ∀ c ∈ text.head?, test c = false) : text.dropWhile test = text :=
  @dropWhile_append_of_stop test [] text (by simp) first

theorem dropEndWhile_of_stop {test : Char → Bool} {text : List Char}
    (last : ∀ c ∈ text.getLast?, test c = false) : dropEndWhile test text = text := by
  rw [dropEndWhile, dropWhile_of_stop (by simpa using last), List.reverse_reverse]

/-- Nothing is trimmed from a text that neither begins nor ends with a blank. -/
theorem trim_of_ends {text : List Char} (first : ∀ c ∈ text.head?, isBlank c = false)
    (last : ∀ c ∈ text.getLast?, isBlank c = false) : trim text = text := by
  rw [trim, trimStart, dropWhile_of_stop first, trimEnd, dropEndWhile_of_stop last]

theorem trim_of_no_blank {text : List Char} (ink : ∀ c ∈ text, isBlank c = false) :
    trim text = text :=
  trim_of_ends (fun c head => ink c (List.mem_of_head? head))
    fun c last => ink c (List.mem_of_getLast? last)

/-- A text is its trimmed text and blanks, and the trimmed text is empty or ends with no blank. -/
theorem trimEnd_append_eq (text : List Char) :
    ∃ blanks, text = trimEnd text ++ blanks ∧ (∀ c ∈ blanks, isBlank c = true) ∧
      (trimEnd text = [] ∨ ∃ front c, trimEnd text = front ++ [c] ∧ isBlank c = false) := by
  refine ⟨(text.reverse.takeWhile isBlank).reverse, ?_, ?_, ?_⟩
  · rw [trimEnd, dropEndWhile, ← List.reverse_append, List.takeWhile_append_dropWhile,
      List.reverse_reverse]
  · intro c member
    exact mem_takeWhile_imp (List.mem_reverse.mp member)
  · have stops := head?_dropWhile_stops isBlank text.reverse
    rw [trimEnd, dropEndWhile]
    cases rest : text.reverse.dropWhile isBlank with
    | nil => exact .inl rfl
    | cons c front =>
        refine .inr ⟨front.reverse, c, by simp, stops c ?_⟩
        rw [rest]
        rfl

/-- Around the trimmed text there are blanks. -/
theorem exists_trim_append_eq (text : List Char) :
    ∃ front back, text = front ++ trimStart text ∧ trimStart text = trim text ++ back ∧
      (∀ c ∈ front, isBlank c = true) ∧ ∀ c ∈ back, isBlank c = true := by
  rcases trimEnd_append_eq (trimStart text) with ⟨back, shape, blank, -⟩
  refine ⟨text.takeWhile isBlank, back, List.takeWhile_append_dropWhile.symm, shape, ?_, blank⟩
  exact fun c member => mem_takeWhile_imp member

theorem trim_isInfix (text : List Char) : trim text <:+: text := by
  rcases exists_trim_append_eq text with ⟨front, back, shape, inner, -, -⟩
  exact ⟨front, back, by rw [List.append_assoc, ← inner, ← shape]⟩

/-- Whether a text begins with ink does not depend on the blanks behind it. -/
theorem startsWith_append_blank {start text blanks : List Char}
    (ink : ∀ c ∈ start, isBlank c = false) (blank : ∀ c ∈ blanks, isBlank c = true) :
    startsWith start (text ++ blanks) = startsWith start text := by
  induction start generalizing text with
  | nil => cases text <;> cases blanks <;> rfl
  | cons c start ih =>
      cases text with
      | nil =>
          cases blanks with
          | nil => rfl
          | cons d blanks =>
              have apart : c ≠ d := by
                rintro rfl
                simp [ink c List.mem_cons_self] at blank
              simp [startsWith, dropPrefix?, apart]
      | cons d text =>
          have rest := @ih text fun e member => ink e (List.mem_cons_of_mem _ member)
          simp only [startsWith, dropPrefix?, List.cons_append] at rest ⊢
          split
          · exact rest
          · rfl

theorem isBlank_eq_false_of_all {start : List Char} (all : start.all (fun c => !isBlank c) = true) :
    ∀ c ∈ start, isBlank c = false := by
  simpa using all

theorem startsWith_trim {start text : List Char} (ink : ∀ c ∈ start, isBlank c = false) :
    startsWith start (trim text) = startsWith start (trimStart text) := by
  rcases exists_trim_append_eq text with ⟨front, back, -, shape, -, blank⟩
  rw [shape, startsWith_append_blank ink blank]

/-! ## Pieces between separators -/

theorem splitOn_ne_nil (separator : Char) (text : List Char) : splitOn separator text ≠ [] := by
  cases text with
  | nil => simp [splitOn]
  | cons c text =>
      rw [splitOn]
      split
      · simp
      · split <;> simp

theorem splitOn_append_separator (separator : Char) (left right : List Char) :
    splitOn separator (left ++ separator :: right) =
      splitOn separator left ++ splitOn separator right := by
  induction left with
  | nil => simp [splitOn]
  | cons c left ih =>
      rw [List.cons_append, splitOn, splitOn]
      split
      · rw [ih, List.cons_append]
      · rw [ih]
        cases pieces : splitOn separator left with
        | nil => exact absurd pieces (splitOn_ne_nil separator left)
        | cons piece pieces => rfl

theorem splitOn_of_not_mem {separator : Char} {text : List Char} (outside : separator ∉ text) :
    splitOn separator text = [text] := by
  induction text with
  | nil => rfl
  | cons c text ih =>
      have apart : c ≠ separator := fun same => outside (same ▸ List.mem_cons_self)
      rw [splitOn, ih fun member => outside (List.mem_cons_of_mem _ member)]
      simp [apart]

theorem isInfix_of_mem_splitOn {separator : Char} {text piece : List Char}
    (member : piece ∈ splitOn separator text) : piece <:+: text := by
  have ends (text : List Char) :
      (∀ first ∈ (splitOn separator text).head?, first <+: text) ∧
        ∀ piece ∈ splitOn separator text, piece <:+: text := by
    induction text with
    | nil => simp [splitOn]
    | cons c text ih =>
        rw [splitOn]
        split
        · refine ⟨by simp, ?_⟩
          rintro piece (_ | ⟨_, later⟩)
          · exact List.nil_infix
          · exact (ih.2 piece later).trans (List.suffix_cons c text).isInfix
        · split
          · rename_i none
            exact absurd none (splitOn_ne_nil separator text)
          · rename_i first rest pieces
            have begins : c :: first <+: c :: text :=
              List.cons_prefix_cons.mpr ⟨rfl, ih.1 first (by simp [pieces])⟩
            refine ⟨by simpa using begins, ?_⟩
            rintro piece (_ | ⟨_, later⟩)
            · exact begins.isInfix
            · have inside : piece ∈ splitOn separator text := pieces ▸ List.mem_cons_of_mem first later
              exact (ih.2 piece inside).trans (List.suffix_cons c text).isInfix
  exact (ends text).2 piece member

/-- What is put behind a text goes to its last piece. -/
theorem splitOn_append_of_not_mem {separator : Char} (text : List Char) {more : List Char}
    (outside : separator ∉ more) :
    ∃ pieces last, splitOn separator text = pieces ++ [last] ∧
      splitOn separator (text ++ more) = pieces ++ [last ++ more] := by
  induction text with
  | nil => exact ⟨[], [], rfl, splitOn_of_not_mem outside⟩
  | cons c text ih =>
      obtain ⟨pieces, last, before, after⟩ := ih
      rw [List.cons_append, splitOn, splitOn, before, after]
      split
      · exact ⟨[] :: pieces, last, rfl, rfl⟩
      · cases pieces with
        | nil => exact ⟨[], c :: last, rfl, rfl⟩
        | cons piece pieces => exact ⟨(c :: piece) :: pieces, last, rfl, rfl⟩

/-- Blanks behind a text do not change its trimmed pieces. -/
theorem trim_splitOn_append_blank {separator : Char} (text : List Char) {blanks : List Char}
    (ink : isBlank separator = false) (blank : ∀ c ∈ blanks, isBlank c = true) :
    (splitOn separator (text ++ blanks)).map trim = (splitOn separator text).map trim := by
  have outside : separator ∉ blanks := by
    intro member
    simp [blank separator member] at ink
  obtain ⟨pieces, last, before, after⟩ := splitOn_append_of_not_mem text outside
  rw [before, after, List.map_append, List.map_append, List.map_singleton, List.map_singleton,
    trim_append_blank _ blank]

/-- What stands behind the last separator is found from either side. -/
theorem eq_of_append_separator {separator : Char} {front other last ending : List Char}
    (plain : separator ∉ last) (otherPlain : separator ∉ ending)
    (same : front ++ separator :: last = other ++ separator :: ending) :
    front = other ∧ last = ending := by
  rcases List.append_eq_append_iff.mp same with ⟨more, rfl, rest⟩ | ⟨more, rfl, rest⟩
  · cases more with
    | nil => simpa using rest
    | cons c more => exact absurd (by simp [(List.cons.inj rest).2]) plain
  · cases more with
    | nil => simpa [eq_comm] using rest
    | cons c more => exact absurd (by simp [(List.cons.inj rest).2]) otherPlain

end AutoImport.Text
