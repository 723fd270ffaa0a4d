import AutoImport.Proofs.Import.Effect

/-!
# Scanning an edited document

`Reaches` follows the scan of a document from its beginning up to an edit. What the scan has found there
is found again in the edited document, unless a declaration that was not read before the edit is
completed by it.
-/

namespace AutoImport

open Text

namespace ImportDeclaration

/-- A line starts behind the given beginning of a document. -/
def startsLine (front : List Char) : Bool :=
  (front.getLast?.map (· == '\n')).getD true

@[simp]
theorem startsLine_append_singleton (front : List Char) (c : Char) :
    startsLine (front ++ [c]) = (c == '\n') := by
  simp [startsLine]

theorem startsLine_statement {front chars : List Char} {shape : ImportShape}
    (isStatement : IsStatement chars shape) : startsLine (front ++ chars) = false := by
  obtain ⟨c, last, -, noFeed⟩ := isStatement.exists_last
  simp [startsLine, List.getLast?_append, last, noFeed]

/-- The scan of a document gets to the end of `front`, where `rest` is left, and has found declarations
that say the given shapes. -/
inductive Reaches (text : List Char) : (front rest : List Char) → List ImportShape → Prop where
  | start : Reaches text [] text []
  | gap {front rest : List Char} {c : Char} {found : List ImportShape}
      (earlier : Reaches text front (c :: rest) found)
      (unread : readAnchored? (startsLine front) ⟨byteLength front, c :: rest⟩ = none) :
      Reaches text (front ++ [c]) rest found
  | statement {front lead chars rest : List Char} {shape : ImportShape} {found : List ImportShape}
      (earlier : Reaches text front (lead ++ (chars ++ rest)) found)
      (led : Lead (startsLine front) lead) (isStatement : IsStatement chars shape)
      (stops : StopsInline rest) :
      Reaches text (front ++ lead ++ chars) rest (found ++ [shape])

theorem Reaches.text_eq {text front rest : List Char} {found : List ImportShape}
    (reaches : Reaches text front rest found) : text = front ++ rest := by
  induction reaches with
  | start => rfl
  | gap _ _ ih => simpa using ih
  | statement _ _ _ _ ih => simpa using ih

/-- Where nothing more is found, the scan gets to any place. -/
theorem Reaches.gaps {text front more rest : List Char} {found : List ImportShape}
    (reaches : Reaches text front (more ++ rest) found)
    (nothing : scanFrom 0 (startsLine front) (byteLength front) (more ++ rest) = []) :
    Reaches text (front ++ more) rest found := by
  induction more generalizing front with
  | nil => simpa using reaches
  | cons c more ih =>
      rw [List.cons_append] at reaches nothing
      rw [scanFrom] at nothing
      split at nothing
      · rename_i unread
        have later := ih (reaches.gap unread) (by simpa [byteLength_append, byteLength] using nothing)
        simpa using later
      · simp at nothing

/-- The place of a declaration in a document, which the scan gets to with the given shapes found. -/
structure Placed (text before lead chars behind : List Char) (earlier : List ImportShape)
    (declaration : ImportDeclaration) (next : Cursor) : Prop where
  reaches : Reaches text before (lead ++ (chars ++ behind)) earlier
  led : Lead (startsLine before) lead
  read : read? ⟨byteLength (before ++ lead), chars ++ behind⟩ = some (declaration, next)
  spans : ReadOver ⟨byteLength (before ++ lead), chars ++ behind⟩ chars
    ⟨byteLength (before ++ lead ++ chars), behind⟩ next
  isStatement : IsStatement chars declaration.shape

/-- What is read at the place that the scan has got to is placed there, and the scan goes on behind its
statement. -/
theorem Reaches.placed {text front rest : List Char} {found : List ImportShape}
    {declaration : ImportDeclaration} {next : Cursor} (reaches : Reaches text front rest found)
    (anchored : readAnchored? (startsLine front) ⟨byteLength front, rest⟩ = some (declaration, next)) :
    ∃ lead chars behind, rest = lead ++ (chars ++ behind) ∧
      Placed text front lead chars behind found declaration next ∧
      scanFrom 0 (startsLine front) (byteLength front) rest =
        declaration :: scanFrom 0 false (byteLength (front ++ lead ++ chars)) behind := by
  rcases readAnchored?_eq_some anchored with ⟨lead, ⟨offset, suffix⟩, led, passes, read⟩
  rcases read?_statement read with ⟨chars, ⟨stop, behind⟩, spans, isStatement⟩
  have whole := scanFrom_statement led passes read spans isStatement
  rcases passes with ⟨text_eq, moved⟩
  rcases spans with ⟨⟨suffix_eq, stopped⟩, stops, closes⟩
  simp only at text_eq moved suffix_eq stopped stops whole
  subst suffix_eq text_eq
  rw [← byteLength_append] at moved
  have position : stop = byteLength (front ++ lead ++ chars) := by
    rw [stopped, moved, ← byteLength_append]
  subst moved position
  refine ⟨lead, chars, behind, rfl, ⟨reaches, led, read, ?_, isStatement⟩, whole⟩
  exact ⟨⟨rfl, stopped⟩, stops, closes⟩

/-- The scan gets to the place of each declaration that is found later. -/
theorem Reaches.exists_placed {text front rest : List Char} {found : List ImportShape}
    {earlier later : List ImportDeclaration} {declaration : ImportDeclaration}
    (reaches : Reaches text front rest found)
    (scan : scanFrom 0 (startsLine front) (byteLength front) rest = earlier ++ declaration :: later) :
    ∃ before lead chars behind next,
      Placed text before lead chars behind (found ++ earlier.map shape) declaration next ∧
      scanFrom 0 false (byteLength (before ++ lead ++ chars)) behind = later := by
  obtain ⟨length, measured⟩ : ∃ length, rest.length = length := ⟨_, rfl⟩
  -- By the length of the rest: the scan leaves a character behind, or a whole statement.
  induction length using Nat.strongRecOn generalizing front rest found earlier with
  | ind length ih =>
      cases rest with
      | nil => simp [scanFrom] at scan
      | cons c rest =>
          cases anchored : readAnchored? (startsLine front) ⟨byteLength front, c :: rest⟩ with
          | none =>
              rw [scanFrom, anchored] at scan
              refine ih rest.length ?_ (reaches.gap anchored) ?_ rfl
              · simp [← measured]
              · simpa [byteLength_append, byteLength] using scan
          | some read =>
              obtain ⟨lead, chars, behind, text_eq, placed, whole⟩ := reaches.placed anchored
              rw [whole] at scan
              cases earlier with
              | nil =>
                  rcases List.cons.inj scan with ⟨rfl, rfl⟩
                  exact ⟨front, lead, chars, behind, read.2, by simpa using placed, rfl⟩
              | cons second earlier =>
                  rcases List.cons.inj scan with ⟨rfl, scanBehind⟩
                  have shorter : behind.length < length := by
                    have filled := List.length_pos_iff.mpr placed.isStatement.ne_nil
                    have lengths := congrArg List.length text_eq
                    simp only [List.length_append] at lengths
                    omega
                  have flag : startsLine (front ++ lead ++ chars) = false :=
                    startsLine_statement placed.isStatement
                  rw [← flag] at scanBehind
                  have deeper := ih behind.length shorter (placed.reaches.statement placed.led
                    placed.isStatement placed.spans.stops) scanBehind rfl
                  simpa using deeper

/-- A declaration ends behind its statement, or behind the `;` that follows. -/
theorem Placed.exists_end {text before lead chars behind : List Char} {earlier : List ImportShape}
    {declaration : ImportDeclaration} {next : Cursor}
    (placed : Placed text before lead chars behind earlier declaration next) :
    ∃ gap rest, behind = gap ++ rest ∧
      declaration.span.stop = byteLength (before ++ lead ++ chars ++ gap) := by
  have ends : declaration.span.stop = next.offset := by rw [read?_span placed.read]
  have closes := placed.spans.closes
  rcases Cursor.skip_singleton_passes ';' ⟨byteLength (before ++ lead ++ chars), behind⟩ with
    passes | passes
  all_goals
    rw [← closes] at passes
    refine ⟨_, next.rest, passes.rest, ?_⟩
    rw [ends, passes.offset]
    exact (byteLength_append _ _).symm

theorem exists_placed_of_scan {text : List Char} {earlier later : List ImportDeclaration}
    {declaration : ImportDeclaration} (scan : scanImports text = earlier ++ declaration :: later) :
    ∃ before lead chars behind next,
      Placed text before lead chars behind (earlier.map shape) declaration next ∧
      scanFrom 0 false (byteLength (before ++ lead ++ chars)) behind = later :=
  Reaches.exists_placed Reaches.start scan

theorem exists_placed_of_mem {text : List Char} {declaration : ImportDeclaration}
    (member : declaration ∈ scanImports text) :
    ∃ before lead chars behind earlier next,
      Placed text before lead chars behind earlier declaration next := by
  rcases List.append_of_mem member with ⟨earlier, later, scan⟩
  rcases exists_placed_of_scan scan with ⟨before, lead, chars, behind, next, placed, -⟩
  exact ⟨before, lead, chars, behind, _, next, placed⟩

/-- A declaration ends between two characters of its document. -/
theorem exists_end_of_mem {text : List Char} {declaration : ImportDeclaration}
    (member : declaration ∈ scanImports text) :
    ∃ front rest, text = front ++ rest ∧ declaration.span.stop = byteLength front := by
  rcases exists_placed_of_mem member with ⟨before, lead, chars, behind, earlier, next, placed⟩
  rcases placed.exists_end with ⟨gap, rest, rfl, stop⟩
  exact ⟨before ++ lead ++ chars ++ gap, rest, by simpa using placed.reaches.text_eq, stop⟩

/-! ## The edited document -/

/-- What stands in front of an edit is not read as a declaration when it was not read as one before. -/
def StaysUnread (front rest other : List Char) : Prop :=
  ∀ before back, front = before ++ back → back ≠ [] →
    readAnchored? (startsLine before) ⟨byteLength before, back ++ rest⟩ = none →
    readAnchored? (startsLine before) ⟨byteLength before, back ++ other⟩ = none

theorem StaysUnread.append_cons {front chars rest other : List Char}
    (stays : StaysUnread (front ++ chars) rest other) :
    StaysUnread front (chars ++ rest) (chars ++ other) := by
  rintro before back rfl filled unread
  have again := stays before (back ++ chars) (by simp) (by simp [filled]) (by simpa using unread)
  simpa using again

/-- The scan of a document with another end finds the same up to there. -/
theorem Reaches.scanImports_append {text front rest other : List Char} {found : List ImportShape}
    (reaches : Reaches text front rest found) (stays : StaysUnread front rest other)
    (stops : StopsInline rest → StopsInline other) :
    (scanImports (front ++ other)).map shape =
      found ++ (scanFrom 0 (startsLine front) (byteLength front) other).map shape := by
  induction reaches generalizing other with
  | start => rfl
  | @gap front rest c found _ unread ih =>
      have unreadNow : readAnchored? (startsLine front) ⟨byteLength front, c :: other⟩ = none :=
        stays front [c] rfl (by simp) unread
      have staysHere : StaysUnread front (c :: rest) (c :: other) := stays.append_cons
      have before := ih staysHere (stopsInline_congr rfl)
      rw [scanFrom, unreadNow] at before
      simpa [byteLength_append, byteLength] using before
  | @statement front lead chars rest shape found _ led isStatement stopsHere ih =>
      have stays : StaysUnread front (lead ++ (chars ++ rest)) (lead ++ (chars ++ other)) := by
        have stays : StaysUnread (front ++ (lead ++ chars)) rest other := by simpa using stays
        simpa using stays.append_cons
      have before := ih stays (stopsInline_congr ?_)
      · obtain ⟨again, scan, shaped⟩ :=
          isStatement.scanFrom led (stops stopsHere) (byteLength front)
        rw [scan, ← byteLength_append, List.map_cons, shaped] at before
        rw [startsLine_statement isStatement]
        simpa using before
      · obtain ⟨c, more, shape⟩ : ∃ c more, lead ++ chars = c :: more :=
          List.exists_cons_of_ne_nil (by simp [isStatement.ne_nil])
        rw [← List.append_assoc, ← List.append_assoc, shape]
        rfl

/-! ## Declarations that an edit completes -/

/-- A text that can be completed to a declaration: there is one that takes in all of it. -/
def Completable (part : List Char) : Prop :=
  ∃ more declaration next, read? ⟨0, part ++ more⟩ = some (declaration, next) ∧
    next.rest.length ≤ more.length

/-- A declaration is looked for behind the given beginning of a document. -/
def Awaited (front : List Char) : Prop :=
  ∀ c ∈ (front.reverse.dropWhile isInlineBlank).head?, c = '\n' ∨ c = ';'

/-- No declaration that is looked for but not read could be completed from the given offset on. -/
def NothingOpen (text : List Char) (offset : Nat) : Prop :=
  ∀ front part rest, text = front ++ (importWord ++ part ++ rest) →
    offset = byteLength (front ++ (importWord ++ part)) → Awaited front →
    read? ⟨byteLength front, importWord ++ part ++ rest⟩ = none → ¬Completable (importWord ++ part)

/-- It is enough to look at the words `import` in front of the offset. -/
theorem nothingOpen_of_words {before rest : List Char}
    (words : ∀ count ∈ List.range before.length, ∀ part ∈ dropPrefix? importWord (before.drop count),
      Awaited (before.take count) →
      read? ⟨byteLength (before.take count), importWord ++ part ++ rest⟩ = none →
      ¬Completable (importWord ++ part)) :
    NothingOpen (before ++ rest) (byteLength before) := by
  intro front part other text offset awaited unread
  have text : before ++ rest = (front ++ (importWord ++ part)) ++ other := by
    rw [text]
    simp
  have cut := splitAtByte?_append before rest
  rw [text, offset, splitAtByte?_append, Option.some.injEq, Prod.mk.injEq] at cut
  rcases cut with ⟨rfl, rfl⟩
  have shape : (front ++ (importWord ++ part)).drop front.length = importWord ++ part :=
    List.drop_left
  refine words front.length ?_ part ?_ ?_ ?_
  · rw [List.mem_range, List.length_append, List.length_append]
    have word : importWord.length = 6 := rfl
    omega
  · rw [shape]
    exact dropPrefix?_eq_some_iff.mpr rfl
  · rw [List.take_left]
    exact awaited
  · rw [List.take_left]
    exact unread

theorem Lead.awaited {front lead : List Char} (led : Lead (startsLine front) lead) :
    Awaited (front ++ lead) := by
  have stripped {front run : List Char} (inline : ∀ c ∈ run, isInlineBlank c = true) :
      (front ++ run).reverse.dropWhile isInlineBlank = front.reverse.dropWhile isInlineBlank := by
    rw [List.reverse_append]
    exact List.dropWhile_append_of_pos (by simpa using inline)
  cases led with
  | @line run atStart inline =>
      rw [Awaited, stripped inline]
      rcases List.eq_nil_or_concat front with rfl | ⟨before, last, rfl⟩
      · simp
      · rw [List.concat_eq_append] at atStart ⊢
        rw [startsLine_append_singleton, beq_iff_eq] at atStart
        subst atStart
        rw [List.reverse_append]
        rintro c ⟨⟩
        exact .inl rfl
  | @semicolon run inline =>
      have shape : front ++ ';' :: run = (front ++ [';']) ++ run := by simp
      rw [Awaited, shape, stripped inline, List.reverse_append]
      rintro c ⟨⟩
      exact .inr rfl

/-- When another end of a text makes it a declaration, the declaration takes in all of the text. -/
theorem completable_of_read? {part rest other : List Char} {offset : Nat}
    {found : ImportDeclaration × Cursor} (read : read? ⟨offset, part ++ other⟩ = some found)
    (unread : read? ⟨offset, part ++ rest⟩ = none) : Completable part := by
  rcases found with ⟨declaration, next⟩
  rcases read?_statement read with ⟨chars, middle, spans, isStatement⟩
  have complete {gap : List Char} (shape : chars = part ++ gap) : Completable part := by
    rcases isStatement.reads 0 middle.rest spans.stops with ⟨again, readAgain, -⟩
    rw [shape, List.append_assoc] at readAgain
    refine ⟨_, again, _, readAgain, ?_⟩
    rcases Cursor.skip_singleton_passes ';' ⟨0 + byteLength (part ++ gap), middle.rest⟩ with
      stays | one
    · have kept := congrArg List.length stays.rest
      simp only [List.nil_append, List.length_append] at kept ⊢
      omega
    · have taken := congrArg List.length one.rest
      simp only [List.length_append] at taken ⊢
      omega
  have text : part ++ other = chars ++ middle.rest := spans.passes.rest
  rcases List.append_eq_append_iff.mp text with ⟨gap, shape, -⟩ | ⟨tail, shape, behind⟩
  · exact complete shape
  · cases tail with
    | nil =>
        have whole : chars = part ++ [] := by simp [shape]
        exact complete whole
    | cons c tail =>
        -- The declaration ends before the text does, so its end is no matter.
        have stops : StopsInline (c :: tail ++ rest) := by
          refine stopsInline_congr ?_ spans.stops
          rw [behind]
          rfl
        rcases isStatement.reads offset _ stops with ⟨again, readAgain, -⟩
        rw [shape, List.append_assoc, readAgain] at unread
        simp at unread

/-- The word `import` of a declaration that is looked for in front of an edit stands there as a whole. -/
def WordsStand (front mid other : List Char) : Prop :=
  ∀ before back lead tail, front = before ++ back → back ≠ [] → Lead (startsLine before) lead →
    back ++ (mid ++ other) = lead ++ (importWord ++ tail) →
    ∃ part, back ++ mid = lead ++ (importWord ++ part)

theorem wordsStand_of_not_cut {front mid other : List Char}
    (whole : ∀ before back lead gap tail, front = before ++ back → back ≠ [] →
      Lead (startsLine before) lead → lead ++ importWord = back ++ mid ++ gap →
      other = gap ++ tail → gap = []) : WordsStand front mid other := by
  intro before back lead tail shape filled led text
  have text : back ++ mid ++ other = lead ++ importWord ++ tail := by simpa using text
  rcases List.append_eq_append_iff.mp text with ⟨gap, cut, behind⟩ | ⟨part, stands, -⟩
  · obtain rfl := whole before back lead gap tail shape filled led cut behind
    exact ⟨[], by simpa using cut.symm⟩
  · exact ⟨part, by simpa using stands⟩

/-- The beginning of a declaration holds a word `import` of its own. -/
theorem wordsStand_of_word {front lead inside other : List Char} (filled : inside ≠ []) :
    WordsStand front (lead ++ (importWord ++ inside)) other := by
  refine wordsStand_of_not_cut fun before back found gap tail _ _ led cut _ => ?_
  have cut : found ++ importWord = (back ++ lead) ++ (importWord ++ (inside ++ gap)) := by
    simpa using cut
  rcases List.append_eq_append_iff.mp cut with ⟨more, -, word⟩ | ⟨more, rfl, word⟩
  · have lengths := congrArg List.length word
    have long := List.length_pos_iff.mpr filled
    simp only [List.length_append] at lengths
    omega
  · cases more with
    | nil =>
        have lengths := congrArg List.length word
        have long := List.length_pos_iff.mpr filled
        simp only [List.nil_append, List.length_append] at lengths
        omega
    | cons c more =>
        rcases List.cons.inj word with ⟨rfl, -⟩
        exact absurd (by simp) led.not_letter

/-- No word goes on over the end of a line. -/
theorem wordsStand_of_feed {front other : List Char}
    (feed : startsLine front = true ∨ other.head? = some '\n') : WordsStand front [] other := by
  refine wordsStand_of_not_cut fun before back lead gap tail shape filled led cut behind => ?_
  have noFeed : '\n' ∉ lead ++ importWord := by
    intro member
    rcases List.mem_append.mp member with inLead | inWord
    · rcases led.mem inLead with same | inline
      · exact absurd same (by decide)
      · exact absurd inline (by decide)
    · exact absurd inWord (by decide)
  rw [cut, List.append_nil] at noFeed
  rcases feed with atLine | head
  · rcases Option.ne_none_iff_exists'.mp (mt List.getLast?_eq_none_iff.mp filled) with ⟨c, last⟩
    obtain rfl : c = '\n' := by simpa [startsLine, shape, List.getLast?_append, last] using atLine
    exact absurd (List.mem_append_left gap (List.mem_of_getLast? last)) noFeed
  · cases gap with
    | nil => rfl
    | cons c gap =>
        rw [behind] at head
        obtain rfl : c = '\n' := by simpa using head
        exact absurd (by simp) noFeed

/-- Behind what is not open nothing is completed. -/
theorem NothingOpen.staysUnread {front mid rest other : List Char}
    (nothingOpen : NothingOpen (front ++ (mid ++ rest)) (byteLength (front ++ mid)))
    (stand : WordsStand front mid other) : StaysUnread front (mid ++ rest) (mid ++ other) := by
  rintro before back rfl filled unread
  rw [Option.eq_none_iff_forall_ne_some]
  rintro ⟨declaration, next⟩ found
  rcases readAnchored?_eq_some found with ⟨lead, start, led, passes, read⟩
  rcases read?_beginsImport read with ⟨tail, begins, -⟩
  have text : back ++ (mid ++ other) = lead ++ (importWord ++ tail) := by
    rw [← begins]
    exact passes.rest
  rcases stand before back lead tail rfl filled led text with ⟨part, shape⟩
  have behind : tail = part ++ other := by
    rw [← List.append_assoc, shape] at text
    simpa using text.symm
  have notRead : read? ⟨byteLength (before ++ lead), importWord ++ part ++ rest⟩ = none := by
    rw [Option.eq_none_iff_forall_ne_some]
    intro found read
    rw [byteLength_append] at read
    have anchored := readAnchored?_append led read
    have same : back ++ (mid ++ rest) = lead ++ (importWord ++ part ++ rest) := by
      rw [← List.append_assoc, shape, List.append_assoc, List.append_assoc]
    rw [same, anchored] at unread
    simp at unread
  have readNow : read? ⟨byteLength (before ++ lead), importWord ++ part ++ other⟩ =
      some (declaration, next) := by
    rw [byteLength_append, ← passes.offset, List.append_assoc, ← behind, ← begins]
    exact read
  refine nothingOpen (before ++ lead) part rest ?_ ?_ led.awaited notRead
    (completable_of_read? readNow notRead)
  · have whole := congrArg (before ++ · ++ rest) shape
    simpa using whole
  · rw [List.append_assoc, shape, ← List.append_assoc]

end ImportDeclaration

end AutoImport
