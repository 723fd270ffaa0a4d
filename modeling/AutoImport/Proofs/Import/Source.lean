import AutoImport.Proofs.Import.Reading

/-!
# Where a declaration names its module

A declaration ends with the quoted specifier of its module, perhaps after `from`, and with the blanks
that follow on the same line. `SourceText` holds the parts of such an ending; the reader of endings reads
exactly these texts, and a `;` that comes next.
-/

namespace AutoImport.ImportDeclaration

open Text

/-- Reads the end of a declaration, from the word `from` on. -/
def source? (cursor : Cursor) : Option (String × Cursor) :=
  (specifier? (((cursor.expect? ['f', 'r', 'o', 'm']).map (·.skipWhile isBlank)).getD cursor)).map
    fun found => (found.1, (found.2.skipWhile isInlineBlank).skip [';'])

/-- The parts of the end of a declaration, up to the `;` that may follow. -/
structure SourceText where
  /-- Nothing, or the word `from` with blanks behind it. -/
  lead : List Char
  opening : Char
  specifier : List Char
  closing : Char
  /-- The blanks behind the specifier. -/
  blanks : List Char
  lead_from : lead = [] ∨ ∃ run, (∀ c ∈ run, isBlank c = true) ∧ lead = ['f', 'r', 'o', 'm'] ++ run
  opening_quote : isQuote opening = true
  specifier_plain : ∀ c ∈ specifier, (!isQuote c && c != '\n') = true
  closing_quote : isQuote closing = true
  blanks_inline : ∀ c ∈ blanks, isInlineBlank c = true

namespace SourceText

/-- All characters of a source. -/
def chars (source : SourceText) : List Char :=
  source.lead ++ source.opening :: (source.specifier ++ source.closing :: source.blanks)

theorem chars_ne_nil (source : SourceText) : source.chars ≠ [] := by
  simp [chars]

theorem head?_append (source : SourceText) (rest other : List Char) :
    (source.chars ++ rest).head? = (source.chars ++ other).head? := by
  obtain ⟨c, chars, shape⟩ := List.exists_cons_of_ne_nil source.chars_ne_nil
  rw [shape]
  rfl

theorem head?_front (source : SourceText) (front rest : List Char) :
    (front ++ source.chars ++ rest).head? = (front ++ source.chars).head? := by
  cases front with
  | nil => simpa using source.head?_append rest []
  | cons c front => rfl

/-- A source ends with its closing quotation mark or with a blank on its line. -/
theorem last_chars (source : SourceText) {front : List Char} {c : Char}
    (last : c ∈ (front ++ source.chars).getLast?) : isQuote c = true ∨ isInlineBlank c = true := by
  have shape : front ++ source.chars =
      (front ++ source.lead ++ source.opening :: source.specifier) ++
        source.closing :: source.blanks := by
    simp [chars]
  rw [shape, List.getLast?_append, Option.mem_def, List.getLast?_cons, Option.some_or] at last
  rw [← List.getLast?_cons] at last
  rcases List.mem_cons.mp (List.mem_of_getLast? last) with rfl | blank
  · exact .inl source.closing_quote
  · exact .inr (source.blanks_inline c blank)

end SourceText

/-- No blank comes next on the line. -/
def StopsInline (rest : List Char) : Prop :=
  ∀ c ∈ rest.head?, isInlineBlank c = false

theorem stopsInline_congr {rest other : List Char} (same : other.head? = rest.head?)
    (stops : StopsInline rest) : StopsInline other := by
  rw [StopsInline, same]
  exact stops

theorem specifier?_append {opening closing : Char} {specifier : List Char} (rest : List Char)
    (opens : isQuote opening = true) (plain : ∀ c ∈ specifier, (!isQuote c && c != '\n') = true)
    (closes : isQuote closing = true) (offset : Nat) :
    specifier? ⟨offset, opening :: (specifier ++ closing :: rest)⟩ =
      some (String.ofList specifier,
        ⟨offset + byteLength (opening :: (specifier ++ [closing])), rest⟩) := by
  have stop : ∀ c ∈ (closing :: rest).head?, (!isQuote c && c != '\n') = false := by
    rintro c ⟨⟩
    simp [closes]
  have enter := Cursor.expect?_append [opening] (specifier ++ closing :: rest) offset
  have leave := Cursor.expect?_append [closing] rest
    (offset + byteLength [opening] + byteLength specifier)
  simp only [List.singleton_append] at enter leave
  simp only [specifier?, Cursor.peek?, List.head?_cons, opens, enter,
    Cursor.takeWhile_append plain stop, closes, leave, Option.bind_eq_bind, Option.bind_some,
    Bool.not_true, Bool.false_eq_true, reduceIte]
  simp [byteLength, byteLength_append, Nat.add_assoc]

theorem specifier?_eq_some {cursor next : Cursor} {name : String}
    (found : specifier? cursor = some (name, next)) :
    ∃ opening specifier closing, isQuote opening = true ∧
      (∀ c ∈ specifier, (!isQuote c && c != '\n') = true) ∧ isQuote closing = true ∧
      name = String.ofList specifier ∧
      cursor.Passes (opening :: (specifier ++ [closing])) next := by
  obtain ⟨opening, peeked, found⟩ := Option.bind_eq_some_iff.mp found
  split at found
  · simp at found
  · rename_i opens
    obtain ⟨inside, entered, found⟩ := Option.bind_eq_some_iff.mp found
    obtain ⟨closing, peekedClosing, found⟩ := Option.bind_eq_some_iff.mp found
    split at found
    · rename_i closes
      obtain ⟨closed, left, equal⟩ := Option.bind_eq_some_iff.mp found
      simp only [Option.some.injEq, Prod.mk.injEq] at equal
      obtain ⟨rfl, rfl⟩ := equal
      refine ⟨opening, inside.rest.takeWhile fun c => !isQuote c && c != '\n', closing, ?_,
        fun c member => mem_takeWhile_imp member, closes, rfl, ?_⟩
      · simpa using opens
      · have enters := Cursor.expect?_eq_some_iff.mp entered
        have passes := Cursor.skipWhile_passes (fun c => !isQuote c && c != '\n') inside
        have leaves := Cursor.expect?_eq_some_iff.mp left
        simpa using (enters.trans passes).trans leaves
    · simp at found

/-- The texts of sources are read as what they are. -/
theorem SourceText.source?_append (source : SourceText) {rest : List Char}
    (stops : StopsInline rest) (offset : Nat) :
    source? ⟨offset, source.chars ++ rest⟩ =
      some (String.ofList source.specifier,
        (Cursor.mk (offset + byteLength source.chars) rest).skip [';']) := by
  have led : (((Cursor.mk offset (source.chars ++ rest)).expect? ['f', 'r', 'o', 'm']).map
      (·.skipWhile isBlank)).getD ⟨offset, source.chars ++ rest⟩ =
      ⟨offset + byteLength source.lead, source.opening :: (source.specifier ++
        source.closing :: (source.blanks ++ rest))⟩ := by
    have shape : source.chars ++ rest = source.lead ++ source.opening :: (source.specifier ++
        source.closing :: (source.blanks ++ rest)) := by
      simp [chars]
    rw [shape]
    rcases source.lead_from with empty | ⟨run, blank, lead⟩
    · have different : 'f' ≠ source.opening := by
        intro equal
        have quote := source.opening_quote
        rw [← equal] at quote
        exact absurd quote (by decide)
      simp [empty, Cursor.expect?, dropPrefix?, different, byteLength]
    · have stop : ∀ c ∈ (source.opening :: (source.specifier ++
          source.closing :: (source.blanks ++ rest))).head?, isBlank c = false := by
        rintro c ⟨⟩
        exact not_isBlank_of_isQuote source.opening_quote
      rw [lead, List.append_assoc, Cursor.expect?_append]
      simp only [Option.map_some, Option.getD_some, Cursor.skipWhile_append blank stop,
        byteLength_append, Nat.add_assoc]
  have length : byteLength source.chars = byteLength source.lead +
      byteLength (source.opening :: (source.specifier ++ [source.closing])) +
      byteLength source.blanks := by
    simp [chars, byteLength_append, byteLength, Nat.add_assoc]
  rw [source?, led, specifier?_append _ source.opening_quote source.specifier_plain
    source.closing_quote]
  simp only [Option.map_some, Cursor.skipWhile_append source.blanks_inline stops, length,
    Nat.add_assoc]

/-- What is read as a source is the text of one. -/
theorem source?_eq_some {cursor next : Cursor} {name : String}
    (found : source? cursor = some (name, next)) :
    ∃ (source : SourceText) (middle : Cursor), name = String.ofList source.specifier ∧
      cursor.Passes source.chars middle ∧ StopsInline middle.rest ∧ next = middle.skip [';'] := by
  obtain ⟨⟨name, closed⟩, read, equal⟩ := Option.map_eq_some_iff.mp found
  simp only [Prod.mk.injEq] at equal
  obtain ⟨rfl, rfl⟩ := equal
  obtain ⟨opening, specifier, closing, opens, plain, closes, rfl, passes⟩ := specifier?_eq_some read
  obtain ⟨lead, leadFrom, leadPasses⟩ : ∃ lead : List Char,
      (lead = [] ∨ ∃ run, (∀ c ∈ run, isBlank c = true) ∧ lead = ['f', 'r', 'o', 'm'] ++ run) ∧
      cursor.Passes lead
        (((cursor.expect? ['f', 'r', 'o', 'm']).map (·.skipWhile isBlank)).getD cursor) := by
    cases word : cursor.expect? ['f', 'r', 'o', 'm'] with
    | none => exact ⟨[], .inl rfl, Cursor.Passes.refl cursor⟩
    | some after =>
        exact ⟨_, .inr ⟨_, fun c member => mem_takeWhile_imp member, rfl⟩,
          (Cursor.expect?_eq_some_iff.mp word).trans (Cursor.skipWhile_passes isBlank after)⟩
  refine ⟨⟨lead, opening, specifier, closing, closed.rest.takeWhile isInlineBlank, leadFrom,
    opens, plain, closes, fun c member => mem_takeWhile_imp member⟩, closed.skipWhile isInlineBlank,
    rfl, ?_, head?_dropWhile_stops isInlineBlank closed.rest, rfl⟩
  have all := (leadPasses.trans passes).trans (Cursor.skipWhile_passes isInlineBlank closed)
  simpa [SourceText.chars] using all

end AutoImport.ImportDeclaration
