import AutoImport.Proofs.Import.Anchor

/-!
# Documents as statements and what stands between them

Where every word `import` of a document lies in a declaration, the scan for declarations cuts the
document into statements and parts without that word. `Scanned` is this cut with the declarations at
their places, and `Laid` is what is left of it when the places are forgotten. One statement can be
exchanged for another, and the statements around it are found as before.
-/

namespace AutoImport.ImportDeclaration

open Text

/-! ## The scan, step by step -/

theorem scanFrom_skip (before rest : List Char) (lineStart : Bool) (offset : Nat) :
    scanFrom before.length lineStart offset (before ++ rest) =
      scanFrom 0 ((before.getLast?.map (· == '\n')).getD lineStart) (offset + byteLength before)
        rest := by
  induction before generalizing lineStart offset with
  | nil => simp [byteLength]
  | cons c before ih =>
      rw [List.length_cons, List.cons_append, scanFrom, ih, byteLength, Nat.add_assoc]
      cases before with
      | nil => rfl
      | cons d before =>
          rw [List.getLast?_cons_cons]
          simp [List.getLast?_cons]

theorem scanFrom_gap {lineStart : Bool} {offset : Nat} {c : Char} {text : List Char}
    (free : ¬Anchored lineStart (c :: text)) :
    scanFrom 0 lineStart offset (c :: text) =
      scanFrom 0 (c == '\n') (offset + c.utf8Size) text := by
  have unread : readAnchored? lineStart ⟨offset, c :: text⟩ = none := by
    rw [Option.eq_none_iff_forall_ne_some]
    rintro ⟨declaration, next⟩ found
    exact free (anchored_of_readAnchored? found)
  rw [scanFrom, unread]

/-- The scan goes on right behind the characters of a statement, before a `;`. -/
theorem charactersUntil_eq {lead chars : List Char} {middle next : Cursor} (filled : chars ≠ [])
    (ends : ∀ c ∈ chars.getLast?, isQuote c = true ∨ isInlineBlank c = true)
    (closes : next = middle.skip [';']) :
    charactersUntil (lead ++ (chars ++ middle.rest)) next = (lead ++ chars).length := by
  obtain ⟨offset, rest⟩ := middle
  by_cases semicolon : rest.head? = some ';'
  · obtain ⟨more, rfl⟩ : ∃ more, rest = ';' :: more := by
      cases rest with
      | nil => simp at semicolon
      | cons c more => exact ⟨more, by simpa using semicolon⟩
    have skipped := Cursor.skip_append [';'] more offset
    rw [List.singleton_append] at skipped
    have whole : lead ++ (chars ++ ';' :: more) = (lead ++ chars ++ [';']) ++ more := by simp
    have count : (lead ++ (chars ++ ';' :: more)).length - more.length =
        (lead ++ chars ++ [';']).length := by
      rw [whole, List.length_append, Nat.add_sub_cancel]
    simp only [charactersUntil, closes, skipped, count]
    rw [whole, List.take_left]
    simp
  · rw [Cursor.skip_singleton_of_ne semicolon] at closes
    have whole : lead ++ (chars ++ rest) = (lead ++ chars) ++ rest := by simp
    have count : (lead ++ (chars ++ rest)).length - rest.length = (lead ++ chars).length := by
      rw [whole, List.length_append, Nat.add_sub_cancel]
    simp only [charactersUntil, closes, count]
    rw [whole, List.take_left, List.getLast?_append]
    cases last : chars.getLast? with
    | none => exact absurd (List.getLast?_eq_none_iff.mp last) filled
    | some c =>
        have apart : c ≠ ';' := by
          rintro rfl
          rcases ends ';' last with quote | blank
          · exact absurd quote (by decide)
          · exact absurd blank (by decide)
        simp [apart]

/-- There is one way to read over a statement. -/
theorem ReadOver.unique {cursor middle stop next : Cursor} {chars other : List Char}
    (spans : ReadOver cursor chars middle next) (again : ReadOver cursor other stop next)
    (filled : chars ≠ []) (ends : ∀ c ∈ chars.getLast?, isQuote c = true ∨ isInlineBlank c = true)
    (otherFilled : other ≠ [])
    (otherEnds : ∀ c ∈ other.getLast?, isQuote c = true ∨ isInlineBlank c = true) :
    chars = other ∧ middle = stop := by
  have one : charactersUntil ([] ++ (chars ++ middle.rest)) next = ([] ++ chars).length :=
    charactersUntil_eq filled ends spans.closes
  have two : charactersUntil ([] ++ (other ++ stop.rest)) next = ([] ++ other).length :=
    charactersUntil_eq otherFilled otherEnds again.closes
  rw [List.nil_append, List.nil_append, ← spans.passes.rest] at one
  rw [List.nil_append, List.nil_append, ← again.passes.rest, one] at two
  obtain ⟨rfl, rest⟩ := List.append_inj (spans.passes.rest.symm.trans again.passes.rest) two
  refine ⟨rfl, ?_⟩
  obtain ⟨offset, middleRest⟩ := middle
  obtain ⟨stopOffset, stopRest⟩ := stop
  simp only at rest
  rw [rest, Cursor.mk.injEq]
  exact ⟨spans.passes.offset.trans again.passes.offset.symm, rfl⟩

theorem scanFrom_statement {lineStart : Bool} {cursor start middle next : Cursor}
    {lead chars : List Char} {declaration : ImportDeclaration} {shape : ImportShape}
    (led : Lead lineStart lead) (passes : cursor.Passes lead start)
    (read : read? start = some (declaration, next)) (spans : ReadOver start chars middle next)
    (statement : IsStatement chars shape) :
    scanFrom 0 lineStart cursor.offset cursor.rest =
      declaration :: scanFrom 0 false middle.offset middle.rest := by
  have text : cursor.rest = lead ++ (chars ++ middle.rest) := by
    rw [passes.rest, spans.passes.rest]
  have anchored : readAnchored? lineStart ⟨cursor.offset, lead ++ (chars ++ middle.rest)⟩ =
      some (declaration, next) := by
    refine readAnchored?_append led ?_
    rw [← passes.offset, ← spans.passes.rest]
    exact read
  obtain ⟨c, more, shape'⟩ : ∃ c more, lead ++ chars = c :: more :=
    List.exists_cons_of_ne_nil (by simp [statement.ne_nil])
  have count : charactersUntil (lead ++ (chars ++ middle.rest)) next = (lead ++ chars).length :=
    charactersUntil_eq statement.ne_nil statement.ends spans.closes
  have whole : lead ++ (chars ++ middle.rest) = c :: (more ++ middle.rest) := by
    rw [← List.append_assoc, shape']
    rfl
  have moved : middle.offset = cursor.offset + c.utf8Size + byteLength more := by
    rw [spans.passes.offset, passes.offset, Nat.add_assoc, ← byteLength_append, shape', byteLength,
      Nat.add_assoc]
  have noFeed : (more.getLast?.map (· == '\n')).getD (c == '\n') = false := by
    obtain ⟨last, lastChars, -, noFeed⟩ := statement.exists_last
    have same := congrArg List.getLast? shape'
    rw [List.getLast?_append, lastChars, Option.some_or, List.getLast?_cons, Option.some.injEq] at same
    have apart : (last == '\n') = false := beq_eq_false_iff_ne.mpr noFeed
    rw [← apart, same]
    cases more.getLast? <;> rfl
  rw [text]
  rw [whole] at anchored count ⊢
  rw [shape', List.length_cons] at count
  simp only [scanFrom, anchored, count, Nat.add_sub_cancel, scanFrom_skip, noFeed, ← moved]

/-- A declaration that a scan finds was read where it says that it begins. -/
theorem read?_of_mem_scanFrom {skip : Nat} {lineStart : Bool} {offset : Nat} {text : List Char}
    {declaration : ImportDeclaration} (member : declaration ∈ scanFrom skip lineStart offset text) :
    ∃ before suffix next, text = before ++ suffix ∧
      declaration.span.start = offset + byteLength before ∧
      read? ⟨offset + byteLength before, suffix⟩ = some (declaration, next) := by
  induction text generalizing skip lineStart offset with
  | nil => simp [scanFrom] at member
  | cons c text ih =>
      have later {skip : Nat} {lineStart : Bool}
          (member : declaration ∈ scanFrom skip lineStart (offset + c.utf8Size) text) :
          ∃ before suffix next, c :: text = before ++ suffix ∧
            declaration.span.start = offset + byteLength before ∧
            read? ⟨offset + byteLength before, suffix⟩ = some (declaration, next) := by
        obtain ⟨before, suffix, next, rfl, start, read⟩ := ih member
        rw [Nat.add_assoc] at start read
        exact ⟨c :: before, suffix, next, rfl, start, read⟩
      cases skip with
      | succ skip => exact later (by simpa [scanFrom] using member)
      | zero =>
          rw [scanFrom] at member
          split at member
          · exact later member
          · rename_i found next anchored
            rcases List.mem_cons.mp member with rfl | deeper
            · obtain ⟨lead, middle, -, passes, read⟩ := readAnchored?_eq_some anchored
              refine ⟨lead, middle.rest, next, passes.rest, ?_, ?_⟩
              · rw [read?_span read, passes.offset]
              · rw [← passes.offset]
                exact read
            · exact later deeper

/-! ## The cut -/

/-- Every word `import` of the rest of a document lies in one of the given declarations. `boundary`
says that no word goes on from before the cursor. -/
def Covered (boundary : Bool) (cursor : Cursor) (declarations : List ImportDeclaration) : Prop :=
  ∀ before after, cursor.rest = before ++ (importWord ++ after) →
    (∀ c ∈ after.head?, isWordPart c = false) → (before = [] → boundary = true) →
    (∀ c ∈ before.getLast?, isWordPart c = false) →
    ∃ declaration ∈ declarations,
      declaration.span.start ≤ cursor.offset + byteLength before ∧
      cursor.offset + byteLength before + byteLength importWord ≤ declaration.span.stop

/-- The rest of a document, cut into statements at the places of its declarations and characters where
no declaration is looked for. -/
inductive Scanned : Bool → Cursor → List ImportDeclaration → Prop where
  | nil (lineStart : Bool) (offset : Nat) : Scanned lineStart ⟨offset, []⟩ []
  | gap {lineStart : Bool} {offset : Nat} {c : Char} {text : List Char}
      {declarations : List ImportDeclaration} (free : ¬Anchored lineStart (c :: text))
      (later : Scanned (c == '\n') ⟨offset + c.utf8Size, text⟩ declarations) :
      Scanned lineStart ⟨offset, c :: text⟩ declarations
  | statement {lineStart : Bool} {cursor start middle next : Cursor} {lead chars : List Char}
      {declaration : ImportDeclaration} {declarations : List ImportDeclaration}
      (led : Lead lineStart lead) (passes : cursor.Passes lead start)
      (read : read? start = some (declaration, next)) (spans : ReadOver start chars middle next)
      (isStatement : IsStatement chars declaration.shape)
      (covered : Covered true middle declarations) (later : Scanned false middle declarations) :
      Scanned lineStart cursor (declaration :: declarations)

/-- The rest of a document as statements and characters, whatever its place. -/
inductive Laid : Bool → List Char → List ImportShape → Prop where
  | nil (lineStart : Bool) : Laid lineStart [] []
  | gap {lineStart : Bool} {c : Char} {text : List Char} {shapes : List ImportShape}
      (free : ¬Anchored lineStart (c :: text)) (later : Laid (c == '\n') text shapes) :
      Laid lineStart (c :: text) shapes
  | statement {lineStart : Bool} {lead chars rest : List Char} {shape : ImportShape}
      {shapes : List ImportShape} (led : Lead lineStart lead) (isStatement : IsStatement chars shape)
      (stops : StopsInline rest) (later : Laid false rest shapes) :
      Laid lineStart (lead ++ (chars ++ rest)) (shape :: shapes)

theorem Scanned.laid {lineStart : Bool} {cursor : Cursor} {declarations : List ImportDeclaration}
    (scanned : Scanned lineStart cursor declarations) :
    Laid lineStart cursor.rest (declarations.map ImportDeclaration.shape) := by
  induction scanned with
  | nil lineStart offset => exact .nil lineStart
  | gap free _ ih => exact .gap free ih
  | statement led passes _ spans isStatement _ _ ih =>
      rw [passes.rest, spans.passes.rest]
      exact .statement led isStatement spans.stops ih

/-- A statement at a place where a declaration is looked for is what the scan finds next. -/
theorem IsStatement.scanFrom {lineStart : Bool} {lead chars rest : List Char} {shape : ImportShape}
    (isStatement : IsStatement chars shape) (led : Lead lineStart lead) (stops : StopsInline rest)
    (offset : Nat) :
    ∃ declaration, ImportDeclaration.scanFrom 0 lineStart offset (lead ++ (chars ++ rest)) =
        declaration :: ImportDeclaration.scanFrom 0 false (offset + byteLength (lead ++ chars)) rest ∧
      declaration.shape = shape := by
  rcases isStatement.reads (offset + byteLength lead) rest stops with ⟨declaration, read, shaped⟩
  have passes : Cursor.Passes ⟨offset, lead ++ (chars ++ rest)⟩ lead
      ⟨offset + byteLength lead, chars ++ rest⟩ := ⟨rfl, rfl⟩
  have found := scanFrom_statement led passes read ⟨⟨rfl, rfl⟩, stops, rfl⟩ isStatement
  refine ⟨declaration, ?_, shaped⟩
  rw [byteLength_append, ← Nat.add_assoc]
  exact found

/-- The scan of a laid out text finds its statements. -/
theorem Laid.scanFrom {lineStart : Bool} {text : List Char} {shapes : List ImportShape}
    (laid : Laid lineStart text shapes) (offset : Nat) :
    (scanFrom 0 lineStart offset text).map ImportDeclaration.shape = shapes := by
  induction laid generalizing offset with
  | nil lineStart => rfl
  | gap free _ ih => rw [scanFrom_gap free, ih]
  | @statement lineStart lead chars rest shape shapes led isStatement stops _ ih =>
      obtain ⟨declaration, found, shaped⟩ := isStatement.scanFrom led stops offset
      rw [found, List.map_cons, ih, shaped]

/-- In a covered text, the word `import` does not stand where no declaration is found. -/
theorem Covered.not_anchored {boundary lineStart : Bool} {offset : Nat} {text : List Char}
    (covered : Covered boundary ⟨offset, text⟩ (scanFrom 0 lineStart offset text))
    (bounded : lineStart = true → boundary = true)
    (unread : readAnchored? lineStart ⟨offset, text⟩ = none) : ¬Anchored lineStart text := by
  rintro ⟨lead, rest, rfl, led, begins⟩
  obtain ⟨after, rfl, notWord⟩ := begins
  have atStart : lead = [] → boundary = true := by
    rintro rfl
    cases led with
    | line atStart _ => exact bounded atStart
  have notWordBefore : ∀ c ∈ lead.getLast?, isWordPart c = false :=
    fun c last => led.not_isWordPart (List.mem_of_getLast? last)
  obtain ⟨declaration, member, starts, -⟩ := covered lead after rfl notWord atStart notWordBefore
  obtain ⟨before, suffix, next, shape, position, read⟩ := read?_of_mem_scanFrom member
  simp only [position] at starts
  have begins := read?_beginsImport read
  rcases List.append_eq_append_iff.mp shape with ⟨gap, rfl, tail⟩ | ⟨gap, rfl, tail⟩
  · -- The declaration would begin behind the word, where nothing of the lead is left.
    have noGap : gap = [] := by
      rw [byteLength_append] at starts
      have := length_le_byteLength gap
      exact List.length_eq_zero_iff.mp (by omega)
    subst noGap
    rw [List.append_nil] at read
    rw [List.nil_append] at tail
    rw [← tail] at read
    simp [readAnchored?_append led read] at unread
  · cases gap with
    | nil =>
        rw [List.append_nil] at led unread
        rw [List.nil_append] at tail
        rw [tail] at read
        simp [readAnchored?_append led read] at unread
    | cons c gap =>
        rw [tail] at begins
        obtain rfl : c = 'i' := by simpa using begins.head
        exact led.not_letter (by simp)

/-- A text is covered behind a character that begins no declaration. -/
theorem Covered.tail {boundary : Bool} {offset : Nat} {c : Char} {text : List Char}
    {declarations : List ImportDeclaration}
    (covered : Covered boundary ⟨offset, c :: text⟩ declarations) :
    Covered (!isWordPart c) ⟨offset + c.utf8Size, text⟩ declarations := by
  intro before after shape notWord atStart notWordBefore
  have last : ∀ d ∈ (c :: before).getLast?, isWordPart d = false := by
    cases before with
    | nil =>
        rintro d ⟨⟩
        simpa using atStart rfl
    | cons d before => simpa [List.getLast?_cons_cons] using notWordBefore
  simp only at shape
  obtain ⟨declaration, member, starts, stops⟩ :=
    covered (c :: before) after (by simp [shape]) notWord (by simp) last
  simp only [byteLength] at starts stops
  exact ⟨declaration, member, by simp only; omega, by simp only; omega⟩

/-- A text is covered behind a statement by the declarations behind it. -/
theorem Covered.behind {boundary : Bool} {cursor start middle next : Cursor} {lead chars : List Char}
    {declaration : ImportDeclaration} {shape : ImportShape} {declarations : List ImportDeclaration}
    (covered : Covered boundary cursor (declaration :: declarations))
    (passes : cursor.Passes lead start) (read : read? start = some (declaration, next))
    (spans : ReadOver start chars middle next) (statement : IsStatement chars shape) :
    Covered true middle declarations := by
  intro before after text notWord _ notWordBefore
  have whole : cursor.rest = lead ++ chars ++ before ++ (importWord ++ after) := by
    rw [passes.rest, spans.passes.rest, text]
    simp
  have last : ∀ c ∈ (lead ++ chars ++ before).getLast?, isWordPart c = false := by
    intro c member
    rw [List.getLast?_append, Option.mem_def, Option.or_eq_some_iff] at member
    rcases member with inside | ⟨-, atEnd⟩
    · exact notWordBefore c inside
    · obtain ⟨d, lastChars, notPart, -⟩ := statement.exists_last
      rw [List.getLast?_append, lastChars, Option.some_or, Option.some.injEq] at atEnd
      exact atEnd ▸ notPart
  obtain ⟨found, member, starts, stops⟩ :=
    covered _ after whole notWord (by simp [statement.ne_nil]) last
  have position : middle.offset = cursor.offset + byteLength (lead ++ chars) := by
    rw [spans.passes.offset, passes.offset, byteLength_append, Nat.add_assoc]
  rw [byteLength_append _ before, ← Nat.add_assoc, ← position] at starts stops
  rcases List.mem_cons.mp member with rfl | later
  · -- The declaration itself ends at the next character at the latest.
    have ended : next.offset ≤ middle.offset + byteLength [';'] := by
      rw [spans.closes]
      exact Cursor.skip_offset_le _ _
    rw [read?_span read] at stops
    have word : byteLength importWord = 6 := by decide
    have semicolon : byteLength [';'] = 1 := by decide
    simp only at stops
    omega
  · exact ⟨found, later, starts, stops⟩

theorem Covered.scanned {boundary lineStart : Bool} {cursor : Cursor}
    (covered : Covered boundary cursor (ImportDeclaration.scanFrom 0 lineStart cursor.offset cursor.rest))
    (bounded : lineStart = true → boundary = true) :
    Scanned lineStart cursor (ImportDeclaration.scanFrom 0 lineStart cursor.offset cursor.rest) := by
  obtain ⟨length, measured⟩ : ∃ length, cursor.rest.length = length := ⟨_, rfl⟩
  induction length using Nat.strongRecOn generalizing boundary lineStart cursor with
  | ind length ih =>
      obtain ⟨offset, text⟩ := cursor
      cases text with
      | nil => exact .nil lineStart offset
      | cons c text =>
          simp only [List.length_cons] at measured
          cases anchored : readAnchored? lineStart ⟨offset, c :: text⟩ with
          | none =>
              have free := covered.not_anchored bounded anchored
              simp only [scanFrom_gap free] at covered ⊢
              refine .gap free (ih text.length (by omega) covered.tail ?_ rfl)
              intro feed
              rw [beq_iff_eq.mp feed]
              decide
          | some found =>
              obtain ⟨declaration, next⟩ := found
              obtain ⟨lead, start, led, passes, read⟩ := readAnchored?_eq_some anchored
              obtain ⟨chars, middle, spans, statement⟩ := read?_statement read
              have scan := scanFrom_statement led passes read spans statement
              have shorter : middle.rest.length < length := by
                have text := congrArg List.length (passes.rest.trans (by rw [spans.passes.rest]))
                have filled := List.length_pos_iff.mpr statement.ne_nil
                simp only [List.length_cons, List.length_append] at text
                omega
              rw [scan] at covered ⊢
              have behind := covered.behind passes read spans statement
              exact .statement led passes read spans statement behind
                (ih _ shorter behind (by simp) rfl)

/-! ## Exchanging a statement -/

theorem exists_of_take_eq {chars other : List Char} {shape : ImportShape}
    (statement : IsStatement chars shape) (same : other.take 7 = chars.take 7) :
    ∃ c more tail, chars = importWord ++ c :: more ∧ other = importWord ++ c :: tail := by
  obtain ⟨c, more, rfl, -⟩ := statement.begins
  refine ⟨c, more, other.drop 7, rfl, ?_⟩
  have front : other.take 7 = importWord ++ [c] := by
    rw [same]
    rfl
  calc other = other.take 7 ++ other.drop 7 := (List.take_append_drop 7 other).symm
    _ = importWord ++ c :: other.drop 7 := by rw [front, List.append_assoc, List.singleton_append]

/-- Behind `before`, any statement that begins as `chars` does can stand, with any text that is laid out
behind it: it is read after statements of the given shapes. -/
def Exchanges (lineStart : Bool) (before chars : List Char) (shapes : List ImportShape) : Prop :=
  ∀ other rest shape later, other.take 7 = chars.take 7 → IsStatement other shape →
    StopsInline rest → Laid false rest later →
    Laid lineStart (before ++ (other ++ rest)) (shapes ++ shape :: later)

theorem Exchanges.gap {lineStart : Bool} {c : Char} {before chars tail : List Char}
    {shape : ImportShape} {shapes : List ImportShape}
    (free : ¬Anchored lineStart (c :: before ++ (chars ++ tail))) (statement : IsStatement chars shape)
    (exchanges : Exchanges (c == '\n') before chars shapes) :
    Exchanges lineStart (c :: before) chars shapes := by
  intro other rest shapeOther later same otherStatement stops laid
  refine .gap (fun anchored => free ?_) (exchanges _ _ _ _ same otherStatement stops laid)
  -- Both statements begin alike, so a declaration is looked for in front of both or of none.
  obtain ⟨d, more, tailOther, rfl, rfl⟩ := exists_of_take_eq statement same
  have anchoredHere : Anchored lineStart (c :: before ++ (importWord ++ d :: (tailOther ++ rest))) := by
    simpa using anchored
  simpa using anchored_congr anchoredHere (more ++ tail)

theorem Exchanges.behind {lineStart : Bool} {lead first before chars back : List Char}
    {shape : ImportShape} {shapes : List ImportShape} (led : Lead lineStart lead)
    (statement : IsStatement first shape) (stops : StopsInline (before ++ back))
    (exchanges : Exchanges false before chars shapes) :
    Exchanges lineStart (lead ++ first ++ before) chars (shape :: shapes) := by
  intro other rest shapeOther later same otherStatement stopsRest laid
  have stopsHere : StopsInline (before ++ (other ++ rest)) := by
    cases before with
    | nil => exact (otherStatement.beginsImport rest).stopsInline
    | cons c before => exact stops
  have laidHere := Laid.statement led statement stopsHere
    (exchanges _ _ _ _ same otherStatement stopsRest laid)
  simpa using laidHere

/-- Any declaration of a scan has its place, where another statement with the same beginning can stand
before any text that is laid out. -/
theorem Scanned.split {lineStart : Bool} {cursor : Cursor} {earlier later : List ImportDeclaration}
    {declaration : ImportDeclaration}
    (scanned : Scanned lineStart cursor (earlier ++ declaration :: later)) :
    ∃ before start chars middle next, cursor.Passes before start ∧
      read? start = some (declaration, next) ∧ ReadOver start chars middle next ∧
      IsStatement chars declaration.shape ∧ Covered true middle later ∧
      Scanned false middle later ∧
      Exchanges lineStart before chars (earlier.map ImportDeclaration.shape) := by
  generalize whole : earlier ++ declaration :: later = declarations at scanned
  induction scanned generalizing earlier with
  | nil lineStart offset => simp at whole
  | @gap lineStart offset c text declarations free _ ih =>
      obtain ⟨before, start, chars, middle, next, passes, read, spans, statement, covered, scanned,
        exchanges⟩ := ih whole
      have front : c :: text = c :: before ++ (chars ++ middle.rest) := by
        have rest := passes.rest
        rw [spans.passes.rest] at rest
        simpa using rest
      rw [front] at free
      refine ⟨c :: before, start, chars, middle, next, ⟨?_, ?_⟩, read, spans, statement, covered,
        scanned, exchanges.gap free statement⟩
      · simpa using passes.rest
      · simpa [byteLength, Nat.add_assoc] using passes.offset
  | @statement lineStart cursor start middle next lead chars found declarations led passes read spans
      isStatement covered scanned ih =>
      cases earlier with
      | nil =>
          obtain ⟨rfl, rfl⟩ := List.cons.inj whole
          exact ⟨lead, start, chars, middle, next, passes, read, spans, isStatement, covered, scanned,
            fun _ _ _ _ _ otherStatement stops laid => .statement led otherStatement stops laid⟩
      | cons first earlier =>
          obtain ⟨rfl, rest⟩ := List.cons.inj whole
          obtain ⟨before, startHere, charsHere, middleHere, nextHere, passesHere, readHere, overHere,
            statementHere, coveredHere, scannedHere, exchanges⟩ := ih rest
          have stops := spans.stops
          rw [passesHere.rest] at stops
          exact ⟨lead ++ chars ++ before, startHere, charsHere, middleHere, nextHere,
            (passes.trans spans.passes).trans passesHere, readHere, overHere, statementHere,
            coveredHere, scannedHere, exchanges.behind led isStatement stops⟩

end AutoImport.ImportDeclaration
