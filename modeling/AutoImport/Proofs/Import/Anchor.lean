import AutoImport.Proofs.Import.Statement

/-!
# Where declarations are found

A declaration is looked for at the start of a line and behind a `;`, after blanks on the line. What
stands at such a place is decided by the word `import` and the one character behind it.
-/

namespace AutoImport.ImportDeclaration

open Text

/-- The text begins with the word `import`. -/
def BeginsImport (text : List Char) : Prop :=
  ∃ rest, text = importWord ++ rest ∧ ∀ c ∈ rest.head?, isWordPart c = false

/-- What may stand between a place where a declaration is looked for and the word `import`. -/
inductive Lead (lineStart : Bool) : List Char → Prop where
  | line {run : List Char} (atStart : lineStart = true) (inline : ∀ c ∈ run, isInlineBlank c = true) :
      Lead lineStart run
  | semicolon {run : List Char} (inline : ∀ c ∈ run, isInlineBlank c = true) :
      Lead lineStart (';' :: run)

/-- The word `import` stands where a declaration is looked for. -/
def Anchored (lineStart : Bool) (text : List Char) : Prop :=
  ∃ lead rest, text = lead ++ rest ∧ Lead lineStart lead ∧ BeginsImport rest

theorem Lead.mem {lineStart : Bool} {lead : List Char} (found : Lead lineStart lead) {c : Char}
    (member : c ∈ lead) : c = ';' ∨ isInlineBlank c = true := by
  cases found with
  | line _ inline => exact .inr (inline c member)
  | semicolon inline =>
      rcases List.mem_cons.mp member with rfl | later
      · exact .inl rfl
      · exact .inr (inline c later)

theorem Lead.not_letter {lineStart : Bool} {lead : List Char} (found : Lead lineStart lead) :
    'i' ∉ lead := by
  intro member
  rcases found.mem member with same | inline
  · exact absurd same (by decide)
  · exact absurd inline (by decide)

theorem Lead.not_isWordPart {lineStart : Bool} {lead : List Char} (found : Lead lineStart lead)
    {c : Char} (member : c ∈ lead) : isWordPart c = false := by
  rcases found.mem member with rfl | inline
  · decide
  · simp only [isInlineBlank, Bool.or_eq_true, beq_iff_eq] at inline
    rcases inline with rfl | rfl <;> decide

theorem BeginsImport.head {text : List Char} (begins : BeginsImport text) : text.head? = some 'i' := by
  obtain ⟨rest, rfl, -⟩ := begins
  rfl

theorem BeginsImport.stopsInline {text : List Char} (begins : BeginsImport text) :
    StopsInline text := by
  rw [StopsInline, begins.head]
  rintro c ⟨⟩
  decide

/-- No declaration is looked for where a line ends. -/
theorem not_anchored_feed (lineStart : Bool) (text : List Char) :
    ¬Anchored lineStart ('\n' :: text) := by
  rintro ⟨lead, rest, shape, led, begins⟩
  cases lead with
  | nil =>
      have head := begins.head
      rw [List.nil_append] at shape
      simp [← shape] at head
  | cons c lead =>
      obtain ⟨rfl, -⟩ := List.cons.inj shape
      rcases led.mem List.mem_cons_self with same | inline
      · exact absurd same (by decide)
      · exact absurd inline (by decide)

theorem IsStatement.beginsImport {chars : List Char} {shape : ImportShape}
    (statement : IsStatement chars shape) (rest : List Char) : BeginsImport (chars ++ rest) := by
  obtain ⟨c, more, rfl, notWord⟩ := statement.begins
  refine ⟨c :: more ++ rest, by simp, ?_⟩
  rintro d ⟨⟩
  exact notWord

theorem IsStatement.ne_nil {chars : List Char} {shape : ImportShape}
    (statement : IsStatement chars shape) : chars ≠ [] := by
  obtain ⟨c, more, rfl, -⟩ := statement.begins
  simp [importWord]

/-- A statement ends where no word and no line goes on. -/
theorem IsStatement.exists_last {chars : List Char} {shape : ImportShape}
    (statement : IsStatement chars shape) :
    ∃ c, chars.getLast? = some c ∧ isWordPart c = false ∧ c ≠ '\n' := by
  obtain ⟨c, last⟩ := Option.ne_none_iff_exists'.mp (mt List.getLast?_eq_none_iff.mp statement.ne_nil)
  have notPart : isIdentifierPart c = false := by
    rcases statement.ends c last with quote | blank
    · exact not_isIdentifierPart_of_isQuote quote
    · exact not_isIdentifierPart_of_isBlank (isBlank_of_isInlineBlank blank)
  simp only [isIdentifierPart, Bool.or_eq_false_iff] at notPart
  refine ⟨c, last, notPart.1, ?_⟩
  rintro rfl
  exact absurd (statement.ends _ last) (by decide)

/-- Seven characters tell whether the word `import` stands there. -/
theorem beginsImport_of_append {front rest : List Char} (long : 7 ≤ front.length)
    (begins : BeginsImport (front ++ rest)) (other : List Char) : BeginsImport (front ++ other) := by
  obtain ⟨tail, shape, notWord⟩ := begins
  rcases List.append_eq_append_iff.mp shape with ⟨gap, word, -⟩ | ⟨gap, rfl, rfl⟩
  · have short := congrArg List.length word
    simp only [importWord, List.length_cons, List.length_nil, List.length_append] at short
    omega
  · cases gap with
    | nil => simp [importWord] at long
    | cons c gap =>
        refine ⟨c :: gap ++ other, by simp, ?_⟩
        rintro d ⟨⟩
        exact notWord _ rfl

/-- What stands before a statement is anchored or not whatever the statement goes on with. -/
theorem anchored_congr {lineStart : Bool} {front more : List Char} {c : Char}
    (anchored : Anchored lineStart (front ++ (importWord ++ c :: more))) (other : List Char) :
    Anchored lineStart (front ++ (importWord ++ c :: other)) := by
  obtain ⟨lead, rest, shape, found, begins⟩ := anchored
  rcases List.append_eq_append_iff.mp shape with ⟨gap, rfl, tail⟩ | ⟨gap, rfl, rfl⟩
  · cases gap with
    | nil =>
        refine ⟨front, importWord ++ c :: other, rfl, by simpa using found, ?_⟩
        have here : BeginsImport (importWord ++ [c] ++ more) := by
          have : rest = importWord ++ [c] ++ more := by simpa using tail.symm
          exact this ▸ begins
        simpa using beginsImport_of_append (by simp [importWord]) here other
    | cons d gap =>
        obtain ⟨rfl, -⟩ := List.cons.inj tail
        exact absurd (by simp) found.not_letter
  · refine ⟨lead, gap ++ (importWord ++ c :: other), by simp, found, ?_⟩
    have here : BeginsImport (gap ++ importWord ++ [c] ++ more) := by simpa using begins
    have long : 7 ≤ (gap ++ importWord ++ [c]).length := by simp [importWord]
    simpa using beginsImport_of_append long here other

/-! ## Reading where a declaration is looked for -/

theorem read?_beginsImport {cursor next : Cursor} {declaration : ImportDeclaration}
    (found : read? cursor = some (declaration, next)) : BeginsImport cursor.rest := by
  obtain ⟨chars, middle, spans, statement⟩ := read?_statement found
  rw [spans.passes.rest]
  exact statement.beginsImport middle.rest

theorem readAnchored?_eq_some {lineStart : Bool} {cursor next : Cursor}
    {declaration : ImportDeclaration}
    (found : readAnchored? lineStart cursor = some (declaration, next)) :
    ∃ lead middle, Lead lineStart lead ∧ cursor.Passes lead middle ∧
      read? middle = some (declaration, next) := by
  rw [readAnchored?] at found
  split at found
  · rename_i given read
    obtain rfl := Option.some.inj found
    split at read
    · rename_i atStart
      exact ⟨_, _, .line atStart fun c member => mem_takeWhile_imp member,
        Cursor.skipWhile_passes isInlineBlank cursor, read⟩
    · simp at read
  · obtain ⟨middle, semicolon, read⟩ := Option.bind_eq_some_iff.mp found
    exact ⟨_, _, .semicolon fun c member => mem_takeWhile_imp member,
      (Cursor.expect?_eq_some_iff.mp semicolon).trans (Cursor.skipWhile_passes isInlineBlank middle),
      read⟩

theorem readAnchored?_append {lineStart : Bool} {lead rest : List Char} {offset : Nat}
    {found : ImportDeclaration × Cursor} (led : Lead lineStart lead)
    (read : read? ⟨offset + byteLength lead, rest⟩ = some found) :
    readAnchored? lineStart ⟨offset, lead ++ rest⟩ = some found := by
  have stop : StopsInline rest := (read?_beginsImport read).stopsInline
  cases led with
  | line atStart inline =>
      rw [readAnchored?, if_pos atStart, Cursor.skipWhile_append inline stop, read]
  | @semicolon run inline =>
      have notHere : (if lineStart = true then
          read? ((Cursor.mk offset (';' :: run ++ rest)).skipWhile isInlineBlank) else none) = none := by
        split
        · rw [Option.eq_none_iff_forall_ne_some]
          intro other readHere
          have stays : (Cursor.mk offset (';' :: run ++ rest)).skipWhile isInlineBlank =
              ⟨offset, ';' :: run ++ rest⟩ :=
            Cursor.skipWhile_of_stop (by rintro c ⟨⟩; decide)
          rw [stays] at readHere
          exact absurd (read?_beginsImport readHere).head (by simp)
        · rfl
      have semicolon := Cursor.expect?_append [';'] (run ++ rest) offset
      simp only [List.singleton_append] at semicolon
      rw [readAnchored?, notHere, List.cons_append, semicolon, Option.bind_some,
        Cursor.skipWhile_append inline stop, ← read]
      simp [byteLength, Nat.add_assoc]

theorem anchored_of_readAnchored? {lineStart : Bool} {cursor next : Cursor}
    {declaration : ImportDeclaration}
    (found : readAnchored? lineStart cursor = some (declaration, next)) :
    Anchored lineStart cursor.rest := by
  obtain ⟨lead, middle, led, passes, read⟩ := readAnchored?_eq_some found
  exact ⟨lead, middle.rest, passes.rest, led, read?_beginsImport read⟩

end AutoImport.ImportDeclaration
