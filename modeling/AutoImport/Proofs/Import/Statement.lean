import AutoImport.Proofs.Import.Clauses

/-!
# Texts of statements

`IsStatement` tells which texts are read as a declaration wherever they stand. Whatever is read as a
declaration is such a text, and it stays one when a binding is put between its braces, or in braces of
their own behind its default binding.
-/

namespace AutoImport.ImportDeclaration

open Text

/-- The word that a declaration begins with. -/
def importWord : List Char :=
  ['i', 'm', 'p', 'o', 'r', 't']

/-- A text that is read as a declaration which says `shape`, at any offset and before any text but a
blank. A `;` behind it belongs to the declaration and not to the text. -/
structure IsStatement (chars : List Char) (shape : ImportShape) : Prop where
  begins : ∃ c more, chars = importWord ++ c :: more ∧ isWordPart c = false
  ends : ∀ c ∈ chars.getLast?, isQuote c = true ∨ isInlineBlank c = true
  reads : ∀ offset rest, StopsInline rest →
    ∃ declaration, read? ⟨offset, chars ++ rest⟩ =
        some (declaration, (Cursor.mk (offset + byteLength chars) rest).skip [';']) ∧
      declaration.shape = shape

/-- The reader of declarations moves over the text of a statement and a `;` behind it. -/
structure ReadOver (cursor : Cursor) (chars : List Char) (middle next : Cursor) : Prop where
  passes : cursor.Passes chars middle
  stops : StopsInline middle.rest
  closes : next = middle.skip [';']

/-- The mark of types is a part of the text that it is found in. -/
theorem typeMark_iff_of_quote {front : List Char} (source : SourceText) (rest other : List Char) :
    TypeMark (front ++ source.chars ++ rest) ↔ TypeMark (front ++ source.chars ++ other) := by
  have shape (more : List Char) : front ++ source.chars ++ more = (front ++ source.lead) ++
      source.opening :: (source.specifier ++ source.closing :: source.blanks ++ more) := by
    simp [SourceText.chars]
  have notBlank := not_isBlank_of_isQuote source.opening_quote
  have outside : source.opening ∉ ['t', 'y', 'p', 'e'] := by
    intro member
    have letters : ∀ c ∈ ['t', 'y', 'p', 'e'], isQuote c = false := by
      simp [isQuote]
    have quote := source.opening_quote
    simp [letters _ member] at quote
  rw [shape, shape]
  exact ⟨TypeMark.congr notBlank outside, TypeMark.congr notBlank outside⟩

theorem read?_append {gap body : List Char}
    (boundary : ∀ c ∈ (gap ++ body).head?, isWordPart c = false)
    (blank : ∀ c ∈ gap, isBlank c = true) (stop : ∀ c ∈ body.head?, isBlank c = false)
    (offset : Nat) :
    read? ⟨offset, importWord ++ (gap ++ body)⟩ =
      ((wordAndBlanks? ['t', 'y', 'p', 'e'] ⟨offset + byteLength (importWord ++ gap), body⟩).bind
        (clauses? offset true)).or
      (clauses? offset false ⟨offset + byteLength (importWord ++ gap), body⟩) := by
  have word : (Cursor.mk offset (importWord ++ (gap ++ body))).expect?
      ['i', 'm', 'p', 'o', 'r', 't'] = some ⟨offset + byteLength importWord, gap ++ body⟩ :=
    Cursor.expect?_append importWord (gap ++ body) offset
  have ends : ((Cursor.mk (offset + byteLength importWord) (gap ++ body)).peek?.map
      isWordPart).getD false = false := by
    cases head : (gap ++ body).head? with
    | none => simp [Cursor.peek?, head]
    | some c => simp [Cursor.peek?, head, boundary c head]
  rw [byteLength_append, ← Nat.add_assoc]
  simp only [read?, word, ends, Cursor.skipWhile_append blank stop, Option.bind_eq_bind,
    Option.bind_some, Bool.false_eq_true, reduceIte]

/-- What is read as a declaration begins with the word `import`, and goes on with the mark of types or
without. -/
theorem read?_eq_some {cursor next : Cursor} {declaration : ImportDeclaration}
    (found : read? cursor = some (declaration, next)) :
    ∃ gap head, cursor.Passes (importWord ++ gap) head ∧ (∀ c ∈ gap, isBlank c = true) ∧
      (∀ c ∈ head.rest.head?, isBlank c = false) ∧
      (∀ c ∈ (gap ++ head.rest).head?, isWordPart c = false) ∧
      ((∃ marked, wordAndBlanks? ['t', 'y', 'p', 'e'] head = some marked ∧
          clauses? cursor.offset true marked = some (declaration, next)) ∨
        (¬TypeMark head.rest ∧ clauses? cursor.offset false head = some (declaration, next))) := by
  obtain ⟨afterWord, word, found⟩ := Option.bind_eq_some_iff.mp found
  split at found
  · simp at found
  · rename_i boundary
    have passes := (Cursor.expect?_eq_some_iff.mp word).trans
      (Cursor.skipWhile_passes isBlank afterWord)
    refine ⟨afterWord.rest.takeWhile isBlank, afterWord.skipWhile isBlank, passes,
      fun c member => mem_takeWhile_imp member, head?_dropWhile_stops isBlank afterWord.rest, ?_, ?_⟩
    · rw [← (Cursor.skipWhile_passes isBlank afterWord).rest]
      intro c head
      simpa [Cursor.peek?, Option.mem_def.mp head] using boundary
    · rcases Option.or_eq_some_iff.mp found with typed | ⟨untyped, plain⟩
      · obtain ⟨marked, read, clauses⟩ := Option.bind_eq_some_iff.mp typed
        exact .inl ⟨marked, read, clauses⟩
      · refine .inr ⟨fun mark => ?_, plain⟩
        have isMarked := (marked_isSome_iff plain cursor.offset).mpr mark
        simp [untyped] at isMarked

theorem boundary_congr {gap body other : List Char} (same : other.head? = body.head?)
    (boundary : ∀ c ∈ (gap ++ body).head?, isWordPart c = false) :
    ∀ c ∈ (gap ++ other).head?, isWordPart c = false := by
  rw [List.head?_append, same, ← List.head?_append]
  exact boundary

theorem begins_append {gap body : List Char} (filled : gap ++ body ≠ [])
    (boundary : ∀ c ∈ (gap ++ body).head?, isWordPart c = false) :
    ∃ c more, importWord ++ (gap ++ body) = importWord ++ c :: more ∧ isWordPart c = false := by
  obtain ⟨c, more, shape⟩ := List.exists_cons_of_ne_nil filled
  exact ⟨c, more, by rw [shape], boundary c (by rw [shape]; rfl)⟩

/-- Clauses without the mark of types make a statement. -/
theorem isStatement_plain {gap front : List Char} {source : SourceText} {shape : ImportShape}
    (blank : ∀ c ∈ gap, isBlank c = true)
    (stop : ∀ c ∈ (front ++ source.chars).head?, isBlank c = false)
    (boundary : ∀ c ∈ (gap ++ (front ++ source.chars)).head?, isWordPart c = false)
    (unmarked : ¬TypeMark (front ++ source.chars))
    (reads : ReadsAs false (front ++ source.chars) shape) :
    IsStatement (importWord ++ (gap ++ (front ++ source.chars))) shape where
  begins := begins_append (by simp [source.chars_ne_nil]) boundary
  ends := by
    intro c last
    exact source.last_chars (by simpa using last : c ∈ (importWord ++ (gap ++ front) ++
      source.chars).getLast?)
  reads := by
    intro offset rest stops
    have sameHead : (front ++ source.chars ++ rest).head? = (front ++ source.chars).head? :=
      source.head?_front front rest
    have noMark : ((wordAndBlanks? ['t', 'y', 'p', 'e']
        ⟨offset + byteLength (importWord ++ gap), front ++ source.chars ++ rest⟩).bind
          (clauses? offset true)) = none := by
      obtain ⟨declaration, read, -⟩ :=
        reads offset (offset + byteLength (importWord ++ gap)) rest stops
      rw [← Option.not_isSome_iff_eq_none, marked_isSome_iff read,
        typeMark_iff_of_quote source rest [], List.append_nil]
      exact unmarked
    obtain ⟨declaration, read, shaped⟩ :=
      reads offset (offset + byteLength (importWord ++ gap)) rest stops
    refine ⟨declaration, ?_, shaped⟩
    have text : importWord ++ (gap ++ (front ++ source.chars)) ++ rest =
        importWord ++ (gap ++ (front ++ source.chars ++ rest)) := by simp
    rw [text, read?_append (boundary_congr sameHead boundary) blank (sameHead ▸ stop), noMark,
      Option.none_or, read]
    simp [byteLength_append, Nat.add_assoc]

/-- Clauses behind the mark of types make a statement. -/
theorem isStatement_marked {gap run front : List Char} {source : SourceText} {shape : ImportShape}
    (blank : ∀ c ∈ gap, isBlank c = true)
    (boundary : ∀ c ∈ (gap ++ (['t', 'y', 'p', 'e'] ++ run ++ (front ++ source.chars))).head?,
      isWordPart c = false)
    (filled : run ≠ []) (blankRun : ∀ c ∈ run, isBlank c = true)
    (stop : ∀ c ∈ (front ++ source.chars).head?, isBlank c = false)
    (reads : ReadsAs true (front ++ source.chars) shape) :
    IsStatement (importWord ++ (gap ++ (['t', 'y', 'p', 'e'] ++ run ++ (front ++ source.chars))))
      shape where
  begins := begins_append (by simp) boundary
  ends := by
    intro c last
    exact source.last_chars (by simpa using last : c ∈ (importWord ++ (gap ++
      (['t', 'y', 'p', 'e'] ++ run ++ front)) ++ source.chars).getLast?)
  reads := by
    intro offset rest stops
    have sameHead : (front ++ source.chars ++ rest).head? = (front ++ source.chars).head? :=
      source.head?_front front rest
    obtain ⟨declaration, read, shaped⟩ := reads offset
      (offset + byteLength (importWord ++ gap) + byteLength (['t', 'y', 'p', 'e'] ++ run)) rest stops
    refine ⟨declaration, ?_, shaped⟩
    have text : importWord ++ (gap ++ (['t', 'y', 'p', 'e'] ++ run ++ (front ++ source.chars))) ++
        rest = importWord ++ (gap ++ (['t', 'y', 'p', 'e'] ++ run ++
          (front ++ source.chars ++ rest))) := by simp
    have word : wordAndBlanks? ['t', 'y', 'p', 'e'] ⟨offset + byteLength (importWord ++ gap),
        ['t', 'y', 'p', 'e'] ++ run ++ (front ++ source.chars ++ rest)⟩ =
        some ⟨offset + byteLength (importWord ++ gap) + byteLength (['t', 'y', 'p', 'e'] ++ run),
          front ++ source.chars ++ rest⟩ :=
      wordAndBlanks?_eq_some_iff.mpr ⟨run, filled, blankRun, ⟨rfl, rfl⟩, sameHead ▸ stop⟩
    have boundaryNow : ∀ c ∈ (gap ++ (['t', 'y', 'p', 'e'] ++ run ++
        (front ++ source.chars ++ rest))).head?, isWordPart c = false :=
      boundary_congr (by rfl) boundary
    rw [text, read?_append boundaryNow blank (by rintro c ⟨⟩; decide), word, Option.bind_some, read,
      Option.some_or]
    simp [byteLength_append, byteLength, Nat.add_assoc]

theorem read?_span {cursor next : Cursor} {declaration : ImportDeclaration}
    (found : read? cursor = some (declaration, next)) :
    declaration.span = ⟨cursor.offset, next.offset⟩ := by
  obtain ⟨gap, head, -, -, -, -, ⟨marked, -, clauses⟩ | ⟨-, clauses⟩⟩ := read?_eq_some found
  all_goals
    obtain ⟨-, -, -, -, -, -, -, -, span⟩ := clauses?_eq_some_iff.mp clauses
    exact span

/-- What is read as a declaration is a statement. -/
theorem read?_statement {cursor next : Cursor} {declaration : ImportDeclaration}
    (found : read? cursor = some (declaration, next)) :
    ∃ chars middle, ReadOver cursor chars middle next ∧ IsStatement chars declaration.shape := by
  obtain ⟨gap, head, passes, blank, stop, boundary, ⟨marked, word, clauses⟩ | ⟨unmarked, clauses⟩⟩ :=
    read?_eq_some found
  · obtain ⟨run, filled, blankRun, passesRun, stopRun⟩ := wordAndBlanks?_eq_some_iff.mp word
    obtain ⟨front, source, middle, passesRest, stops, closes, reads⟩ := clauses?_again clauses
    refine ⟨_, middle, ⟨(passes.trans passesRun).trans passesRest, stops, closes⟩, ?_⟩
    have sameHead : head.rest.head? = some 't' := by
      rw [passesRun.rest]
      rfl
    have stopFront : ∀ c ∈ (front ++ source.chars).head?, isBlank c = false := by
      intro c member
      apply stopRun c
      rw [passesRest.rest, List.head?_append, Option.mem_def.mp member]
      rfl
    have boundaryNow : ∀ c ∈ (gap ++ (['t', 'y', 'p', 'e'] ++ run ++
        (front ++ source.chars))).head?, isWordPart c = false :=
      boundary_congr sameHead.symm boundary
    have statement := isStatement_marked blank boundaryNow filled blankRun stopFront reads
    simpa using statement
  · obtain ⟨front, source, middle, passesRest, stops, closes, reads⟩ := clauses?_again clauses
    refine ⟨_, middle, ⟨passes.trans passesRest, stops, closes⟩, ?_⟩
    have sameHead : (front ++ source.chars).head? = head.rest.head? := by
      rw [passesRest.rest, source.head?_front]
    have unmarkedFront : ¬TypeMark (front ++ source.chars) := by
      rw [passesRest.rest, typeMark_iff_of_quote source middle.rest [], List.append_nil] at unmarked
      exact unmarked
    have statement := isStatement_plain blank (sameHead ▸ stop) (boundary_congr sameHead boundary)
      unmarkedFront reads
    simpa using statement

/-! ## Filling braces -/

/-- A declaration of values is read without the mark of types. -/
theorem read?_eq_some_of_plain {cursor next : Cursor} {declaration : ImportDeclaration}
    (found : read? cursor = some (declaration, next)) (plain : declaration.typeOnly = false) :
    ∃ gap head, cursor.Passes (importWord ++ gap) head ∧ (∀ c ∈ gap, isBlank c = true) ∧
      (∀ c ∈ head.rest.head?, isBlank c = false) ∧
      (∀ c ∈ (gap ++ head.rest).head?, isWordPart c = false) ∧
      ¬TypeMark head.rest ∧ clauses? cursor.offset false head = some (declaration, next) := by
  obtain ⟨gap, head, passes, blank, stop, boundary, ⟨marked, -, clauses⟩ | ⟨unmarked, clauses⟩⟩ :=
    read?_eq_some found
  · obtain ⟨-, -, -, -, -, -, -, typed, -⟩ := clauses?_eq_some_iff.mp clauses
    simp [plain] at typed
  · exact ⟨gap, head, passes, blank, stop, boundary, unmarked, clauses⟩

/-- The braces of a declaration of values are filled with anything that does not close them. -/
theorem read?_braces {cursor next : Cursor} {declaration : ImportDeclaration} {list : BraceList}
    (found : read? cursor = some (declaration, next)) (plain : declaration.typeOnly = false)
    (has : declaration.braces = some list) :
    ∃ front content back middle, front ≠ [] ∧ back ≠ [] ∧
      ReadOver cursor (importWord ++ (front ++ (content ++ back))) middle next ∧
      list = ⟨cursor.offset + byteLength (importWord ++ front), String.ofList content,
        bindings content⟩ ∧ '}' ∉ content ∧
      ∀ other, '}' ∉ other → IsStatement (importWord ++ (front ++ (other ++ back)))
        { declaration.shape with bindings := some (bindings other) } := by
  obtain ⟨gap, head, passes, blank, stop, boundary, unmarked, clauses⟩ :=
    read?_eq_some_of_plain found plain
  obtain ⟨before, content, after, source, middle, passesRest, stops, closes, inside, rfl, reads⟩ :=
    clauses?_braces clauses has
  refine ⟨gap ++ before ++ ['{'], content, '}' :: after ++ source.chars, middle, by simp, by simp,
    ⟨?_, stops, closes⟩, ?_, inside, fun other closed => ?_⟩
  · simpa using passes.trans passesRest
  · have brace : '{'.utf8Size = 1 := rfl
    simp [passes.offset, byteLength_append, byteLength, brace, Nat.add_assoc]
  · have shape (filling : List Char) : before ++ '{' :: filling ++ '}' :: after ++ source.chars =
        before ++ '{' :: (filling ++ '}' :: after ++ source.chars) := by simp
    have sameHead : (before ++ '{' :: other ++ '}' :: after ++ source.chars).head? =
        head.rest.head? := by
      rw [passesRest.rest, shape, shape]
      cases before <;> rfl
    have unmarkedNow : ¬TypeMark (before ++ '{' :: other ++ '}' :: after ++ source.chars) := by
      intro mark
      rw [shape] at mark
      refine unmarked ?_
      rw [passesRest.rest, shape, List.append_assoc]
      exact mark.congr (by decide) (by decide)
    have statement := isStatement_plain blank (sameHead ▸ stop) (boundary_congr sameHead boundary)
      unmarkedNow (reads other closed)
    simpa using statement

/-- An identifier with a comma behind it is no mark of types. -/
theorem not_typeMark_of_comma {name : List Char} (identifier : IsIdentifier name) (rest : List Char) :
    ¬TypeMark (name ++ ',' :: rest) := by
  rintro ⟨run, more, shape, filled, blank, -, -⟩
  obtain ⟨c, run, rfl⟩ := List.exists_cons_of_ne_nil filled
  have blankHead : isBlank c = true := blank c List.mem_cons_self
  have notComma : ',' ≠ c := by
    rintro rfl
    exact absurd blankHead (by decide)
  rw [List.append_assoc] at shape
  rcases List.append_eq_append_iff.mp shape with ⟨gap, word, tail⟩ | ⟨gap, front, tail⟩
  · cases gap with
    | nil => exact notComma (List.cons.inj tail).1
    | cons d gap =>
        obtain ⟨rfl, -⟩ := List.cons.inj tail
        have inWord : ',' ∈ ['t', 'y', 'p', 'e'] := by
          rw [word]
          simp
        exact absurd inWord (by decide)
  · cases gap with
    | nil => exact notComma (List.cons.inj tail).1.symm
    | cons d gap =>
        obtain ⟨rfl, -⟩ := List.cons.inj tail
        have part := identifier.parts c (by rw [front]; simp)
        simp [not_isIdentifierPart_of_isBlank blankHead] at part

/-- Braces are put behind the default binding of a declaration of values that has nothing else. -/
theorem read?_default {cursor next : Cursor} {declaration : ImportDeclaration}
    {binding : DefaultBinding} (found : read? cursor = some (declaration, next))
    (plain : declaration.typeOnly = false) (has : declaration.defaultBinding = some binding)
    (noNamespace : declaration.namespaceBinding = none) (noBraces : declaration.braces = none)
    (noComma : ∀ front rest, cursor.rest = front ++ rest →
      binding.stop = cursor.offset + byteLength front → (rest.dropWhile isBlank).head? ≠ some ',') :
    ∃ front back middle, front ≠ [] ∧ back ≠ [] ∧
      ReadOver cursor (importWord ++ (front ++ back)) middle next ∧
      binding.stop = cursor.offset + byteLength (importWord ++ front) ∧
      ∀ other, '}' ∉ other →
        IsStatement (importWord ++ (front ++ (',' :: ' ' :: '{' :: other ++ ['}'] ++ back)))
          { declaration.shape with bindings := some (bindings other) } := by
  obtain ⟨gap, head, passes, blank, stop, boundary, -, clauses⟩ := read?_eq_some_of_plain found plain
  have noCommaHere : ∀ name rest, head.rest = name ++ rest →
      binding.stop = head.offset + byteLength name → (rest.dropWhile isBlank).head? ≠ some ',' := by
    intro name rest shape position
    refine noComma (importWord ++ gap ++ name) rest ?_ ?_
    · simp [passes.rest, shape]
    · rw [position, passes.offset, byteLength_append _ name, Nat.add_assoc]
  obtain ⟨name, after, source, middle, identifier, passesRest, stops, closes, position, reads⟩ :=
    clauses?_default clauses has noNamespace noBraces noCommaHere
  refine ⟨gap ++ name, after ++ source.chars, middle, by simp [identifier.ne_nil],
    by simp [source.chars_ne_nil], ⟨?_, stops, closes⟩, ?_, fun other closed => ?_⟩
  · simpa using passes.trans passesRest
  · simp [position, passes.offset, byteLength_append, Nat.add_assoc]
  · have shape : name ++ ',' :: ' ' :: '{' :: other ++ '}' :: after ++ source.chars =
        name ++ ',' :: (' ' :: '{' :: other ++ '}' :: after ++ source.chars) := by simp
    have sameHead : (name ++ ',' :: ' ' :: '{' :: other ++ '}' :: after ++ source.chars).head? =
        head.rest.head? := by
      obtain ⟨c, more, rfl⟩ := List.exists_cons_of_ne_nil identifier.ne_nil
      rw [passesRest.rest]
      rfl
    have unmarked : ¬TypeMark (name ++ ',' :: ' ' :: '{' :: other ++ '}' :: after ++
        source.chars) := by
      rw [shape]
      exact not_typeMark_of_comma identifier _
    have statement := isStatement_plain blank (sameHead ▸ stop) (boundary_congr sameHead boundary)
      unmarked (reads other closed)
    simpa using statement

end AutoImport.ImportDeclaration
