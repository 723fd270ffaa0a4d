import Mathlib.Tactic.ByContra
import AutoImport.Proofs.Import.Bindings
import AutoImport.Proofs.Import.Document
import AutoImport.Proofs.Text.Line

/-!
# A new statement in a document

A new statement is read as what it says at the start of a line, in a part of a document that does not
have the word `import`.
-/

namespace AutoImport

open Text

namespace ImportDeclaration

/-! ## Texts without the word -/

/-- A text without the word `import`. `boundary` says that no word goes on from before the text. -/
def Wordless (boundary : Bool) (text : List Char) : Prop :=
  ∀ before after, text = before ++ (importWord ++ after) →
    (∀ c ∈ after.head?, isWordPart c = false) → (before = [] → boundary = true) →
    ∃ c ∈ before.getLast?, isWordPart c = true

theorem Covered.wordless {boundary : Bool} {cursor : Cursor} (covered : Covered boundary cursor []) :
    Wordless boundary cursor.rest := by
  intro before after shape notWord atStart
  by_contra none
  obtain ⟨declaration, member, -⟩ := covered before after shape notWord atStart fun c last => by
    rw [Bool.eq_false_iff]
    exact fun word => none ⟨c, last, word⟩
  simp at member

theorem wordless_nil (boundary : Bool) : Wordless boundary [] := by
  intro before after shape
  simp [importWord] at shape

theorem Wordless.tail {boundary : Bool} {c : Char} {text : List Char}
    (wordless : Wordless boundary (c :: text)) : Wordless (!isWordPart c) text := by
  intro before after shape notWord atStart
  obtain ⟨d, last, word⟩ := wordless (c :: before) after (by simp [shape]) notWord (by simp)
  cases before with
  | nil =>
      obtain rfl : c = d := by simpa using last
      simp [word] at atStart
  | cons e before => exact ⟨d, by simpa [List.getLast?_cons_cons] using last, word⟩

theorem Wordless.behind {boundary : Bool} {front rest : List Char} {c : Char}
    (wordless : Wordless boundary (front ++ rest)) (last : front.getLast? = some c)
    (notPart : isWordPart c = false) : Wordless true rest := by
  have filled : front ≠ [] := by
    rintro rfl
    simp at last
  intro before after shape notWord _
  obtain ⟨d, member, word⟩ :=
    wordless (front ++ before) after (by simp [shape]) notWord (by simp [filled])
  rw [List.getLast?_append, Option.mem_def, Option.or_eq_some_iff] at member
  rcases member with inside | ⟨-, atEnd⟩
  · exact ⟨d, inside, word⟩
  · obtain rfl : c = d := by simpa [last] using atEnd
    simp [notPart] at word

theorem Wordless.cons {boundary : Bool} {c : Char} {text : List Char}
    (wordless : Wordless true text) (notPart : isWordPart c = false) : Wordless boundary (c :: text) := by
  intro before after shape notWord _
  cases before with
  | nil =>
      obtain ⟨rfl, -⟩ := List.cons.inj shape
      exact absurd notPart (by decide)
  | cons d before =>
      obtain ⟨rfl, rest⟩ := List.cons.inj shape
      obtain ⟨e, last, word⟩ := wordless before after rest notWord fun _ => rfl
      refine ⟨e, ?_, word⟩
      cases before with
      | nil => simp at last
      | cons f before => simpa [List.getLast?_cons_cons] using last

theorem Wordless.not_anchored {boundary lineStart : Bool} {text : List Char}
    (wordless : Wordless boundary text) (bounded : lineStart = true → boundary = true) :
    ¬Anchored lineStart text := by
  rintro ⟨lead, rest, shape, led, after, rfl, notWord⟩
  have atStart : lead = [] → boundary = true := by
    rintro rfl
    cases led with
    | line atStart _ => exact bounded atStart
  obtain ⟨c, last, word⟩ := wordless lead after shape notWord atStart
  simp [led.not_isWordPart (List.mem_of_getLast? last)] at word

/-- A place in front of a line feed is told by what stands before the line feed. -/
theorem Anchored.of_append {lineStart : Bool} {lines rest : List Char} (feed : '\n' ∈ lines)
    (anchored : Anchored lineStart (lines ++ rest)) : Anchored lineStart lines := by
  obtain ⟨lead, tail, whole, led, after, rfl, notWord⟩ := anchored
  have noFeed : '\n' ∉ lead := by
    intro inside
    rcases led.mem inside with same | inline
    · exact absurd same (by decide)
    · exact absurd inline (by decide)
  have wordFree : '\n' ∉ importWord := by decide
  -- The line feed is neither in the blanks nor in the word, so both end before it.
  rcases List.append_eq_append_iff.mp whole with ⟨gap, rfl, -⟩ | ⟨gap, rfl, tailShape⟩
  · exact absurd (List.mem_append_left _ feed) noFeed
  have inGap := (List.mem_append.mp feed).resolve_left noFeed
  rcases List.append_eq_append_iff.mp tailShape with ⟨more, rfl, afterShape⟩ | ⟨more, word, -⟩
  · have inMore := (List.mem_append.mp inGap).resolve_left wordFree
    obtain ⟨d, more, rfl⟩ := List.exists_cons_of_ne_nil (List.ne_nil_of_mem inMore)
    refine ⟨lead, importWord ++ d :: more, rfl, led, d :: more, rfl, ?_⟩
    rintro c ⟨⟩
    exact notWord d (by rw [afterShape]; rfl)
  · exact absurd (word ▸ List.mem_append_left _ inGap) wordFree

/-- Nothing is found in a text without the word. -/
theorem Wordless.laid {boundary lineStart : Bool} {text : List Char}
    (wordless : Wordless boundary text) (bounded : lineStart = true → boundary = true) :
    Laid lineStart text [] := by
  induction text generalizing boundary lineStart with
  | nil => exact .nil lineStart
  | cons c text ih =>
      refine .gap (wordless.not_anchored bounded) (ih wordless.tail fun feed => ?_)
      rw [beq_iff_eq.mp feed]
      decide

/-- Nothing is found in lines without the word, whatever follows them. -/
theorem Wordless.laid_append {boundary lineStart : Bool} {lines rest : List Char}
    {shapes : List ImportShape} (wordless : Wordless boundary lines)
    (bounded : lineStart = true → boundary = true) (feed : lines.getLast? = some '\n')
    (laid : Laid true rest shapes) : Laid lineStart (lines ++ rest) shapes := by
  induction lines generalizing boundary lineStart with
  | nil => simp at feed
  | cons c lines ih =>
      have free : ¬Anchored lineStart (c :: lines ++ rest) := fun anchored =>
        wordless.not_anchored bounded (anchored.of_append (List.mem_of_getLast? feed))
      refine .gap free ?_
      cases lines with
      | nil =>
          obtain rfl : c = '\n' := by simpa using feed
          exact laid
      | cons d lines =>
          refine ih wordless.tail (fun same => ?_) (by simpa [List.getLast?_cons_cons] using feed)
          rw [beq_iff_eq.mp same]
          decide

/-! ## The text of a new statement -/

/-- The text of a new statement up to its closing quotation mark. -/
def newStatement (mark : Char) (name specifier : List Char) : List Char :=
  importWord ++ ([' '] ++ ('{' :: ([' '] ++ name ++ [' ']) ++ '}' :: [' '] ++
    (['f', 'r', 'o', 'm', ' '] ++ mark :: (specifier ++ [mark]))))

/-- What a new statement says. -/
def newShape (name specifier : String) : ImportShape :=
  ⟨specifier, false, none, none, some [⟨name, none⟩]⟩

/-- The text of a statement with braces up to its closing quotation mark. -/
def bracedStatement (mark : Char) (content specifier : List Char) : List Char :=
  importWord ++ ([' '] ++ ('{' :: content ++ '}' :: [' '] ++
    (['f', 'r', 'o', 'm', ' '] ++ mark :: (specifier ++ [mark]))))

/-- What a statement with braces and nothing else says. -/
def bracedShape (bindings : List ImportBinding) (specifier : String) : ImportShape :=
  ⟨specifier, false, none, none, some bindings⟩

theorem isStatement_bracedStatement {mark : Char} {content specifier blanks : List Char}
    (quote : isQuote mark = true) (noClose : '}' ∉ content)
    (plain : ∀ c ∈ specifier, (!isQuote c && c != '\n') = true)
    (inline : ∀ c ∈ blanks, isInlineBlank c = true) :
    IsStatement (bracedStatement mark content specifier ++ blanks)
      (bracedShape (bindings content) (String.ofList specifier)) := by
  let source : SourceText :=
    { lead := ['f', 'r', 'o', 'm'] ++ [' ']
      opening := mark
      specifier := specifier
      closing := mark
      blanks := blanks
      lead_from := .inr ⟨[' '], List.all_eq_true.mp rfl, rfl⟩
      opening_quote := quote
      specifier_plain := plain
      closing_quote := quote
      blanks_inline := inline }
  have blankSpace : ∀ c ∈ [' '], isBlank c = true := List.all_eq_true.mp rfl
  have text : bracedStatement mark content specifier ++ blanks = importWord ++ ([' '] ++
      ('{' :: content ++ '}' :: [' '] ++ source.chars)) := by
    simp [bracedStatement, SourceText.chars, source]
  rw [text]
  refine isStatement_plain blankSpace (by rintro c ⟨⟩; decide) (by rintro c ⟨⟩; decide) ?_ ?_
  · rintro ⟨run, rest, shape, -⟩
    simp at shape
  · intro start offset rest stops
    have stopSource : ∀ c ∈ (source.chars ++ rest).head?, isBlank c = false := by
      rintro c ⟨⟩
      decide
    have noDefault : defaultBinding? ⟨offset, [] ++ ('{' :: content ++ '}' :: [' '] ++
        (source.chars ++ rest))⟩ = (none, ⟨offset, '{' :: content ++ '}' :: [' '] ++
        (source.chars ++ rest)⟩) :=
      defaultBinding?_of_other (by rintro c ⟨⟩; decide)
    exact clauses?_of_braces noDefault (namespaceBinding?_of_other (by simp)) noClose blankSpace
      stopSource stops

theorem isStatement_newStatement {mark : Char} {name specifier blanks : List Char}
    (quote : isQuote mark = true) (identifier : IsIdentifier name)
    (plain : ∀ c ∈ specifier, (!isQuote c && c != '\n') = true)
    (inline : ∀ c ∈ blanks, isInlineBlank c = true) :
    IsStatement (newStatement mark name specifier ++ blanks)
      (newShape (String.ofList name) (String.ofList specifier)) := by
  have noClose : '}' ∉ [' '] ++ name ++ [' '] := by
    have inName : '}' ∉ name := identifier.not_mem (by decide)
    simp [inName]
  have statement := isStatement_bracedStatement quote noClose plain inline
  rw [bindings_spaced identifier] at statement
  exact statement

end ImportDeclaration

open ImportDeclaration

namespace QuoteStyle

/-- The character of a quotation mark, as a character. -/
def char : QuoteStyle → Char
  | .double => '"'
  | .single => '\''

theorem toList_mark (quote : QuoteStyle) : quote.mark.toList = [quote.char] := by
  cases quote <;> rfl

theorem isQuote_char (quote : QuoteStyle) : isQuote quote.char = true := by
  cases quote <;> rfl

end QuoteStyle

namespace ImportStyle

theorem toList_statement_braced (style : ImportStyle) (bindings : List ImportBinding)
    (specifier : String) :
    (style.statement bindings specifier).toList =
      bracedStatement style.quote.char
          ([' '] ++ [',', ' '].intercalate (bindings.map fun binding => binding.render.toList) ++ [' '])
          specifier.toList ++
        (if style.semicolons then [';'] else []) := by
  have names : (", ".intercalate (bindings.map ImportBinding.render)).toList =
      [',', ' '].intercalate (bindings.map fun binding => binding.render.toList) := by
    rw [String.toList_intercalate, List.map_map]
    rfl
  rw [statement]
  simp only [String.toList_append, QuoteStyle.toList_mark, names]
  cases style.semicolons <;> simp [bracedStatement, importWord]

theorem toList_statement (style : ImportStyle) (name specifier : String) :
    (style.statement [⟨name, none⟩] specifier).toList =
      newStatement style.quote.char name.toList specifier.toList ++
        (if style.semicolons then [';'] else []) := by
  rw [toList_statement_braced]
  simp [newStatement, bracedStatement, ImportBinding.render]

/-- A new statement takes in the blanks behind it on its line, unless it ends with a `;`. -/
theorem exists_isStatement_append (style : ImportStyle) {name specifier : String}
    (identifier : IsIdentifier name.toList)
    (plain : ∀ c ∈ specifier.toList, (!isQuote c && c != '\n') = true) (rest : List Char) :
    ∃ chars behind, (style.statement [⟨name, none⟩] specifier).toList ++ rest = chars ++ behind ∧
      IsStatement chars (newShape name specifier) ∧ StopsInline behind ∧
      (behind = ';' :: rest ∨
        ∃ run, rest = run ++ behind ∧ ∀ c ∈ run, isInlineBlank c = true) := by
  have isStatement (blanks : List Char) (inline : ∀ c ∈ blanks, isInlineBlank c = true) :
      IsStatement (newStatement style.quote.char name.toList specifier.toList ++ blanks)
        (newShape name specifier) := by
    have found := isStatement_newStatement style.quote.isQuote_char identifier plain inline
    rwa [String.ofList_toList, String.ofList_toList] at found
  rw [toList_statement]
  cases style.semicolons with
  | true =>
      refine ⟨_, ';' :: rest, ?_, isStatement [] (by simp), ?_, .inl rfl⟩
      · simp
      · rintro c ⟨⟩
        decide
  | false =>
      have split : rest = rest.takeWhile isInlineBlank ++ rest.dropWhile isInlineBlank :=
        (List.takeWhile_append_dropWhile ..).symm
      have inline : ∀ c ∈ rest.takeWhile isInlineBlank, isInlineBlank c = true :=
        fun c member => mem_takeWhile_imp member
      refine ⟨_, rest.dropWhile isInlineBlank, ?_, isStatement _ inline,
        head?_dropWhile_stops isInlineBlank rest, .inr ⟨_, split, inline⟩⟩
      simp

/-- A new statement at the start of a line is the only one that is found up to the end of a text that
does not have the word `import` otherwise. -/
theorem laid_statement (style : ImportStyle) {name specifier : String} {rest : List Char}
    (identifier : IsIdentifier name.toList)
    (plain : ∀ c ∈ specifier.toList, (!isQuote c && c != '\n') = true)
    (wordless : Wordless true rest) :
    Laid true ((style.statement [⟨name, none⟩] specifier).toList ++ rest)
      [newShape name specifier] := by
  obtain ⟨chars, behind, shape, isStatement, stops, next⟩ :=
    style.exists_isStatement_append identifier plain rest
  have wordlessBehind : Wordless true behind := by
    rcases next with rfl | ⟨run, rfl, inline⟩
    · exact wordless.cons (by decide)
    · cases last : run.getLast? with
      | none =>
          rw [List.getLast?_eq_none_iff.mp last, List.nil_append] at wordless
          exact wordless
      | some c =>
          have inlineLast : isInlineBlank c = true := inline c (List.mem_of_getLast? last)
          have notPart := not_isIdentifierPart_of_isBlank (isBlank_of_isInlineBlank inlineLast)
          simp only [isIdentifierPart, Bool.or_eq_false_iff] at notPart
          exact wordless.behind last notPart.1
  have led : Lead true [] := .line rfl (by simp)
  rw [shape]
  exact Laid.statement led isStatement stops (wordlessBehind.laid (by simp))

end ImportStyle

/-! ## Where a new statement goes -/

namespace ImportDeclaration

/-- Lines that a text without the word `import` begins with do not have it either. -/
theorem Wordless.lines {boundary : Bool} {lines rest : List Char}
    (wordless : Wordless boundary (lines ++ rest)) (feed : lines.getLast? = some '\n') :
    Wordless boundary lines := by
  rintro before after rfl notWord atStart
  obtain ⟨c, more, rfl⟩ : ∃ c more, after = c :: more := by
    cases after with
    | nil =>
        rw [List.append_nil, List.getLast?_append] at feed
        exact absurd feed (by simp [importWord])
    | cons c more => exact ⟨c, more, rfl⟩
  refine wordless before (c :: more ++ rest) (by simp) ?_ atStart
  rintro d ⟨⟩
  exact notWord _ rfl

theorem Wordless.append_feed {boundary : Bool} {text : List Char} (wordless : Wordless boundary text) :
    Wordless boundary (text ++ ['\n']) := by
  intro before after shape notWord atStart
  rcases List.eq_nil_or_concat after with rfl | ⟨more, last, rfl⟩
  · have ends := congrArg List.getLast? shape
    rw [List.append_nil, List.getLast?_append, List.getLast?_append] at ends
    simp [importWord] at ends
  · have whole : text ++ ['\n'] = before ++ (importWord ++ more) ++ [last] := by simpa using shape
    obtain ⟨front, -⟩ := List.append_inj' whole rfl
    refine wordless before more front (fun c head => notWord c ?_) atStart
    rw [List.concat_eq_append, List.head?_append, Option.mem_def.mp head]
    rfl

end ImportDeclaration

/-- The header is lines of the document, or the whole of it. -/
theorem splitHeader_spec (text : List Char) :
    text = (splitHeader text).1 ++ (splitHeader text).2 ∧
      ((splitHeader text).1 = [] ∨ (splitHeader text).1.getLast? = some '\n' ∨
        (splitHeader text).2 = []) := by
  obtain ⟨count, counted⟩ : ∃ count, headerLinesFrom 0 0 false (linesWithEnds text) = count :=
    ⟨_, rfl⟩
  have cut := List.take_append_drop count (linesWithEnds text)
  simp only [splitHeader, counted]
  refine ⟨?_, ?_⟩
  · rw [← List.flatten_append, cut, flatten_linesWithEnds]
  · by_cases filled : (linesWithEnds text).drop count = []
    · exact .inr (.inr (by rw [filled]; rfl))
    · rcases getLast?_flatten_lines cut.symm filled with empty | last
      · exact .inl (by rw [empty]; rfl)
      · exact .inr (.inl last)

/-- Without declarations a new statement goes to a line of its own behind the header. -/
theorem insertStatement_nil (text : List Char) (statement : String) :
    ∃ lead gap : String,
      insertStatement text [] statement =
        .insert (byteLength (splitHeader text).1) (lead ++ statement ++ gap) ∧
      (lead = "" ∧ ((splitHeader text).1 = [] ∨ (splitHeader text).1.getLast? = some '\n') ∨
        lead = "\n") ∧ (gap = "\n" ∨ gap = "\n\n") := by
  refine ⟨if (splitHeader text).1.isEmpty || (splitHeader text).1.getLast? == some '\n' then "" else "\n",
    if (splitHeader text).2.isEmpty || startsWith ['\n'] (splitHeader text).2 ||
      startsWith ['\r', '\n'] (splitHeader text).2 then "\n" else "\n\n", rfl, ?_, ?_⟩
  · split
    · rename_i atLine
      left
      rw [Bool.or_eq_true, List.isEmpty_iff, beq_iff_eq] at atLine
      exact ⟨rfl, atLine⟩
    · exact .inr rfl
  · split
    · exact .inl rfl
    · exact .inr rfl

end AutoImport
