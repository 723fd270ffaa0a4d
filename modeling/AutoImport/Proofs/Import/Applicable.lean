import AutoImport.Proofs.Import.Removal
import AutoImport.Proofs.Text.Position

/-!
# Edits that can be made

An import cuts its document at the declarations, between the braces of one of them and behind the header,
and its edit has a beginning and an end. All of these are places between two characters, whatever script
the document is written in, so that the edit has positions and can be applied.
-/

namespace AutoImport

open Text ImportDeclaration

/-! ## Places of a declaration -/

theorem read?_clauses {cursor next : Cursor} {declaration : ImportDeclaration}
    (found : read? cursor = some (declaration, next)) :
    ∃ front head typeOnly, cursor.Passes front head ∧
      clauses? cursor.offset typeOnly head = some (declaration, next) := by
  rcases read?_eq_some found with ⟨gap, head, passes, -, -, -, ⟨marked, word, clauses⟩ | ⟨-, clauses⟩⟩
  · rcases wordAndBlanks?_eq_some_iff.mp word with ⟨run, -, -, passesRun, -⟩
    exact ⟨_, marked, true, passes.trans passesRun, clauses⟩
  · exact ⟨_, head, false, passes, clauses⟩

/-- A declaration is a part of the document. -/
theorem exists_statement_of_mem {text : List Char} {declaration : ImportDeclaration}
    (member : declaration ∈ scanImports text) :
    ∃ front statement back, text = front ++ (statement ++ back) ∧
      declaration.span = ⟨byteLength front, byteLength front + byteLength statement⟩ := by
  rcases exists_placed_of_mem member with ⟨before, lead, chars, behind, _, next, placed⟩
  rcases placed.exists_end with ⟨gap, back, rfl, stop⟩
  have start : declaration.span.start = byteLength (before ++ lead) := by rw [read?_span placed.read]
  refine ⟨before ++ lead, chars ++ gap, back, ?_, ?_⟩
  · rw [placed.reaches.text_eq]
    simp
  · rw [← byteLength_append, ← start, ← List.append_assoc, ← stop]

/-- What stands between the braces of a declaration is a part of the document. -/
theorem exists_braces_of_mem {text : List Char} {declaration : ImportDeclaration} {list : BraceList}
    (member : declaration ∈ scanImports text) (has : declaration.braces = some list) :
    ∃ front back, text = front ++ (list.content.toList ++ back) ∧ list.start = byteLength front := by
  rcases exists_placed_of_mem member with ⟨before, lead, chars, behind, _, next, placed⟩
  rcases read?_clauses placed.read with ⟨words, head, typeOnly, passes, clauses⟩
  rcases clauses?_braces clauses has with
    ⟨heads, content, after, source, middle, passesRest, -, -, -, rfl, -⟩
  have rest := passes.rest
  simp only [passesRest.rest] at rest
  refine ⟨before ++ lead ++ words ++ heads ++ ['{'], '}' :: after ++ source.chars ++ middle.rest, ?_, ?_⟩
  · rw [placed.reaches.text_eq, rest]
    simp
  · have brace : byteLength ['{'] = 1 := rfl
    simp only [passes.offset, byteLength_append, brace]

/-! ## The end of the header -/

/-- The byte offset where the header ends, as the sum of the lengths of its lines. There are `seen` lines
of `offset` bytes behind, and the header has at least `header` bytes. -/
def headerEndFrom (seen offset header : Nat) (inBlock : Bool) : List (List Char) → Nat
  | [] => offset
  | line :: lines =>
    let content := trim line
    let next := offset + byteLength line
    if inBlock then headerEndFrom (seen + 1) next header (!contains ['*', '/'] content) lines
    else if seen == 0 && startsWith ['#', '!'] content then
      headerEndFrom (seen + 1) next next false lines
    else if startsWith ['/', '*'] content then
      headerEndFrom (seen + 1) next header (!contains ['*', '/'] content) lines
    else if content.isEmpty && offset != 0 then headerEndFrom (seen + 1) next next false lines
    else if startsWith ['/', '/'] content then headerEndFrom (seen + 1) next header false lines
    else header

def headerEnd (text : List Char) : Nat :=
  headerEndFrom 0 0 0 false (linesWithEnds text)

/-- Behind the first line there is a byte. -/
theorem byteLength_flatten_bne_zero {behind : List (List Char)} (filled : ∀ line ∈ behind, line ≠ []) :
    (byteLength behind.flatten != 0) = (behind.length != 0) := by
  cases behind with
  | nil => rfl
  | cons line behind =>
      have characters := length_le_byteLength line
      have positive := List.length_pos_iff.mpr (filled line List.mem_cons_self)
      rw [List.flatten_cons, byteLength_append, List.length_cons, Bool.eq_iff_iff, bne_iff_ne, bne_iff_ne]
      omega

/-- The bytes of the header are those of its lines. -/
theorem headerEndFrom_eq {behind lines : List (List Char)} {header : Nat} {inBlock : Bool}
    (filled : ∀ line ∈ behind ++ lines, line ≠ []) (within : header ≤ behind.length) :
    headerEndFrom behind.length (byteLength behind.flatten) (byteLength (behind.take header).flatten)
        inBlock lines =
      byteLength
        ((behind ++ lines).take (headerLinesFrom behind.length header inBlock lines)).flatten := by
  induction lines generalizing behind header inBlock with
  | nil => simp [headerEndFrom, headerLinesFrom]
  | cons line lines ih =>
      -- The line comes to lie behind. It leaves the header as it was, or ends it for now.
      have rest {counted : Nat} (inBlock : Bool) (within : counted ≤ behind.length + 1) :=
        @ih (behind ++ [line]) counted inBlock (by simpa using filled) (by simpa using within)
      simp only [List.length_append, List.length_singleton, List.flatten_append,
        List.flatten_singleton, byteLength_append, List.append_assoc, List.singleton_append] at rest
      have keep (inBlock : Bool) := rest inBlock (Nat.le_succ_of_le within)
      rw [List.take_append_of_le_length within] at keep
      have count := rest false (Nat.le_refl _)
      rw [List.take_of_length_le (by simp), List.flatten_append, List.flatten_singleton,
        byteLength_append] at count
      have started : (byteLength behind.flatten != 0) = (behind.length != 0) :=
        byteLength_flatten_bne_zero fun line member => filled line (List.mem_append_left _ member)
      simp only [headerEndFrom, headerLinesFrom, started]
      split_ifs
      · exact keep _
      · exact count
      · exact keep _
      · exact count
      · exact keep _
      · rw [List.take_append_of_le_length within]

theorem headerEnd_eq (text : List Char) : headerEnd text = byteLength (splitHeader text).1 :=
  @headerEndFrom_eq [] (linesWithEnds text) 0 false
    (fun _ member => (areLines_linesWithEnds text).ne_nil_of_mem member) (Nat.zero_le _)

/-! ## Cutting and editing -/

/-- The declarations of a document, what stands between their braces and the header are cut out between
two characters. -/
structure CutsBetweenCharacters (text : List Char) : Prop where
  statements : ∀ declaration ∈ scanImports text, ∃ statement,
    between? declaration.span.start declaration.span.stop text = some statement
  braces : ∀ declaration ∈ scanImports text, ∀ list ∈ declaration.braces,
    between? list.span.start list.span.stop text = some list.content.toList
  header : splitAtByte? (headerEnd text) text = some (splitHeader text)

theorem cutsBetweenCharacters (text : List Char) : CutsBetweenCharacters text where
  statements := by
    intro declaration member
    rcases exists_statement_of_mem member with ⟨front, statement, back, shape, span⟩
    refine ⟨statement, ?_⟩
    rw [span, shape]
    exact between?_append front statement back
  braces := by
    intro declaration member list has
    rcases exists_braces_of_mem member has with ⟨front, back, shape, start⟩
    rw [BraceList.span, start, shape]
    exact between?_append front list.content.toList back
  header := by
    rw [headerEnd_eq]
    exact splitAtByte?_eq_some_iff.mpr ⟨(splitHeader_spec text).1, rfl⟩

/-- An edit has a beginning and an end in a document, in this order, and so positions and a result. -/
structure Text.TextEdit.IsApplicable (edit : TextEdit) (text : List Char) : Prop where
  ordered : edit.start ≤ edit.stop
  inside : edit.stop ≤ byteLength text
  start : IsBoundary text edit.start
  stop : IsBoundary text edit.stop
  shown : ∃ first last, edit.positions? text = some (first, last)
  applied : ∃ result, edit.applied? text = some result

theorem Text.TextEdit.Cuts.isApplicable {edit : TextEdit} {text front hole back : List Char}
    (cuts : edit.Cuts text front hole back) : edit.IsApplicable text := by
  have start : IsBoundary text edit.start := ⟨front, hole ++ back, cuts.text_eq, cuts.start⟩
  have stop : IsBoundary text edit.stop :=
    ⟨front ++ hole, back, by rw [cuts.text_eq, List.append_assoc], cuts.stop⟩
  rcases Position.exists_at?_of_isBoundary start with ⟨first, firstAt⟩
  rcases Position.exists_at?_of_isBoundary stop with ⟨last, lastAt⟩
  refine ⟨?_, stop.le_byteLength, start, stop, ⟨first, last, ?_⟩, _, cuts.applied⟩
  · rw [cuts.start, cuts.stop, byteLength_append]
    exact Nat.le_add_right _ _
  · simp only [TextEdit.positions?, firstAt, lastAt, Option.bind_eq_bind, Option.bind_some]

/-- In every document an import cuts between characters, and its edit can be made. -/
theorem importSymbol_applicable (style : ImportStyle) (document : Path) (text : List Char)
    (symbol : ExportedSymbol) :
    CutsBetweenCharacters text ∧ ∀ edit, style.importSymbol document text symbol = .ok edit →
      edit.edit.IsApplicable text := by
  refine ⟨cutsBetweenCharacters text, fun edit returned => ?_⟩
  rcases ImportStyle.importSymbol_cases returned with
    ⟨-, ⟨declaration, found, -, -, edit_eq⟩ | ⟨-, -, merged⟩ | ⟨-, -, -, edit_eq⟩⟩
  · rcases exists_end_of_mem (List.mem_of_find?_eq_some found) with ⟨front, rest, rfl, stop⟩
    rw [edit_eq, stop]
    exact (TextEdit.cuts_insert front rest "").isApplicable
  · rcases exists_cuts_of_merge merged with ⟨front, hole, back, cuts, -, -⟩
    exact cuts.isApplicable
  · rcases exists_insertStatement text (style.statement [⟨symbol.name, none⟩] edit.specifier) with
      ⟨front, rest, lead, gap, insertion, -, reaches⟩
    rw [edit_eq, insertion, reaches.text_eq]
    exact (TextEdit.cuts_insert front rest _).isApplicable

/-- A binding behind a comment of characters with four bytes. -/
theorem importSymbol_applicable_of_emoji :
    CutsBetweenCharacters "// ü😀\n\nimport \x7b A, /* 😀 */ \x7d from \"./m\"".toList ∧
      (TextEdit.insert 22 " B,").IsApplicable
        "// ü😀\n\nimport \x7b A, /* 😀 */ \x7d from \"./m\"".toList := by
  have applicable := importSymbol_applicable .standard ⟨"src/x.ts"⟩
    "// ü😀\n\nimport \x7b A, /* 😀 */ \x7d from \"./m\"".toList ⟨"B", .classLike, ⟨"src/m.ts"⟩, none⟩
  exact ⟨applicable.1, applicable.2 ⟨.merged, "./m", .insert 22 " B,"⟩ (by decide +kernel)⟩

end AutoImport
