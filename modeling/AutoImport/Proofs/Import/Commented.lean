import AutoImport.Proofs.Import.Header
import AutoImport.Proofs.Import.Rescan
import AutoImport.Proofs.Import.Shift

/-!
# Imports behind a comment

A block comment in front of a document is searched for declarations like any other text. When none is
read from a place in it, the declarations of the document are found behind it, and a symbol is imported
as it would be without the comment.
-/

namespace AutoImport

open Text

/-! ## Texts in which no declaration is read -/

namespace ImportDeclaration

/-- No declaration is read from a place in a text on, with the given rest behind it. -/
def Unread (before front rest : List Char) : Prop :=
  ∀ lead back, front = lead ++ back → back ≠ [] →
    readAnchored? (startsLine (before ++ lead)) ⟨byteLength (before ++ lead), back ++ rest⟩ = none

theorem unread_cons_iff {before front rest : List Char} {c : Char} :
    Unread before (c :: front) rest ↔
      readAnchored? (startsLine before) ⟨byteLength before, c :: front ++ rest⟩ = none ∧
        Unread (before ++ [c]) front rest := by
  constructor
  · intro unread
    constructor
    · simpa using unread [] (c :: front) rfl (by simp)
    · intro lead back shape filled
      simpa using unread (c :: lead) back (by simp [shape]) filled
  · rintro ⟨here, later⟩ lead back shape filled
    cases lead with
    | nil =>
        rw [List.nil_append] at shape
        rw [List.append_nil, ← shape]
        exact here
    | cons d lead =>
        rcases List.cons.inj shape with ⟨rfl, rest⟩
        simpa using later lead back rest filled

theorem unread_iff {before front rest : List Char} :
    Unread before front rest ↔ ∀ count < front.length,
      (readAnchored? (startsLine (before ++ front.take count))
        ⟨byteLength (before ++ front.take count), front.drop count ++ rest⟩).isNone = true := by
  simp only [Option.isNone_iff_eq_none]
  constructor
  · intro unread count short
    apply unread (front.take count) (front.drop count) (List.take_append_drop count front).symm
    rw [ne_eq, List.drop_eq_nil_iff]
    omega
  · rintro each lead back rfl filled
    have short : lead.length < (lead ++ back).length := by
      have positive := List.length_pos_iff.mpr filled
      rw [List.length_append]
      omega
    simpa using each lead.length short

instance (before front rest : List Char) : Decidable (Unread before front rest) :=
  decidable_of_iff _ unread_iff.symm

theorem scanFrom_of_unread {before front rest : List Char} (unread : Unread before front rest) :
    scanFrom 0 (startsLine before) (byteLength before) (front ++ rest) =
      scanFrom 0 (startsLine (before ++ front)) (byteLength (before ++ front)) rest := by
  induction front generalizing before with
  | nil => simp
  | cons c front ih =>
      rcases unread_cons_iff.mp unread with ⟨here, later⟩
      have onward := ih later
      rw [List.cons_append, scanFrom]
      rw [List.cons_append] at here
      simp only [here]
      simpa [byteLength_append, byteLength] using onward

/-- A declaration that is read from a place in lines begins in these lines. -/
theorem span_start_lt {lineStart : Bool} {front rest : List Char} {offset : Nat}
    {declaration : ImportDeclaration} {next : Cursor} (feed : '\n' ∈ front)
    (found : readAnchored? lineStart ⟨offset, front ++ rest⟩ = some (declaration, next)) :
    declaration.span.start < offset + byteLength front := by
  rcases readAnchored?_eq_some found with ⟨lead, middle, led, passes, read⟩
  have noFeed : '\n' ∉ lead := by
    intro member
    rcases led.mem member with same | inline
    · exact absurd same (by decide)
    · exact absurd inline (by decide)
  have start : declaration.span.start = offset + byteLength lead := by
    rw [read?_span read]
    exact passes.offset
  rw [start]
  rcases List.append_eq_append_iff.mp passes.rest with ⟨more, shape, -⟩ | ⟨more, shape, -⟩
  · exact absurd (shape ▸ List.mem_append_left _ feed) noFeed
  · cases more with
    | nil => exact absurd (by simpa [shape] using feed) noFeed
    | cons c more =>
        rw [shape, byteLength_append, byteLength]
        have size := c.utf8Size_pos
        omega

theorem exists_start_lt {before front rest : List Char} (feed : front.getLast? = some '\n')
    (read : ¬Unread before front rest) :
    ∃ declaration ∈ scanFrom 0 (startsLine before) (byteLength before) (front ++ rest),
      declaration.span.start < byteLength (before ++ front) := by
  induction front generalizing before with
  | nil => simp at feed
  | cons c front ih =>
      rw [List.cons_append, scanFrom]
      cases here : readAnchored? (startsLine before) ⟨byteLength before, c :: front ++ rest⟩ with
      | some found =>
          have starts := span_start_lt (List.mem_of_getLast? feed) here
          rw [List.cons_append] at here
          simp only [here]
          refine ⟨found.1, List.mem_cons_self, ?_⟩
          rw [byteLength_append]
          exact starts
      | none =>
          have later : ¬Unread (before ++ [c]) front rest :=
            fun unread => read (unread_cons_iff.mpr ⟨here, unread⟩)
          rw [List.cons_append] at here
          simp only [here]
          cases front with
          | nil =>
              refine absurd ?_ later
              intro lead back shape filled
              exact absurd (List.append_eq_nil_iff.mp shape.symm).2 filled
          | cons d front =>
              rw [List.getLast?_cons_cons] at feed
              rcases ih feed later with ⟨declaration, member, starts⟩
              refine ⟨declaration, ?_, ?_⟩
              · simpa [byteLength_append, byteLength] using member
              · simpa using starts

/-- Behind lines the declarations of a document are found as they are without these lines exactly when
none is read from a place in them. -/
theorem scanImports_append_iff {front rest : List Char} (feed : front.getLast? = some '\n') :
    scanImports (front ++ rest) = (scanImports rest).map (shift (byteLength front)) ↔
      Unread [] front rest := by
  have moved : scanFrom 0 true (byteLength front) rest =
      (scanImports rest).map (shift (byteLength front)) := by
    rw [scanImports, ← scanFrom_shift, Nat.zero_add]
  constructor
  · intro same
    by_contra read
    rcases exists_start_lt feed read with ⟨declaration, member, starts⟩
    have found : declaration ∈ scanImports (front ++ rest) := member
    rw [same] at found
    rcases List.mem_map.mp found with ⟨own, -, rfl⟩
    have later : byteLength front ≤ (shift (byteLength front) own).span.start := Nat.le_add_left _ _
    rw [List.nil_append] at starts
    omega
  · intro unread
    have onward := scanFrom_of_unread unread
    have atLine : startsLine front = true := by simp [startsLine, feed]
    rw [List.nil_append, atLine, moved] at onward
    exact onward

/-! ## What an import sees of a declaration -/

@[simp]
theorem shift_specifier (distance : Nat) (declaration : ImportDeclaration) :
    (declaration.shift distance).specifier = declaration.specifier :=
  rfl

@[simp]
theorem named_shift (distance : Nat) (declaration : ImportDeclaration) :
    (declaration.shift distance).named = declaration.named := by
  simp only [named, shift, Option.map_map]
  rfl

@[simp]
theorem localNames_shift (distance : Nat) (declaration : ImportDeclaration) :
    (declaration.shift distance).localNames = declaration.localNames := by
  simp only [localNames, named_shift]
  simp only [shift, Option.map_map]
  rfl

@[simp]
theorem provides_shift (distance : Nat) (declaration : ImportDeclaration) (specifier : String)
    (binding : ImportBinding) :
    (declaration.shift distance).provides specifier binding = declaration.provides specifier binding := by
  simp [provides]

end ImportDeclaration

namespace Text.TextEdit

/-- The same edit further on in a document. -/
def shift (distance : Nat) (edit : TextEdit) : TextEdit :=
  ⟨edit.start + distance, edit.stop + distance, edit.newText⟩

theorem insert_shift (distance offset : Nat) (newText : String) :
    (insert offset newText).shift distance = insert (offset + distance) newText :=
  rfl

end Text.TextEdit

theorem BraceList.add_shift (distance : Nat) (list : BraceList) (rendered : String) :
    BraceList.add { list with start := list.start + distance } rendered =
      (list.add rendered).shift distance := by
  simp only [add, span]
  split
  · simp [TextEdit.shift, Nat.add_right_comm]
  · split <;> simp [TextEdit.insert_shift, Nat.add_right_comm]

namespace ImportDeclaration

theorem findSome?_shift {α : Type} {distance : Nat} {part : ImportDeclaration → Option α}
    {change : α → α} (moves : ∀ declaration, part (shift distance declaration) =
      (part declaration).map change) (declarations : List ImportDeclaration) :
    (declarations.map (shift distance)).findSome? part =
      (declarations.findSome? part).map change := by
  induction declarations with
  | nil => rfl
  | cons declaration declarations ih =>
      rw [List.map_cons, List.findSome?_cons, List.findSome?_cons, ih, moves]
      cases part declaration <;> rfl

theorem merge?_shift (distance : Nat) (declarations : List ImportDeclaration) (rendered : String) :
    merge? (declarations.map (shift distance)) rendered =
      (merge? declarations rendered).map (TextEdit.shift distance) := by
  have first : (declarations.map (shift distance)).findSome? braces =
      (declarations.findSome? braces).map fun list => { list with start := list.start + distance } :=
    findSome?_shift (fun _ => rfl) declarations
  have default : ((declarations.map (shift distance)).filter (·.namespaceBinding.isNone)).findSome?
      defaultBinding = ((declarations.filter (·.namespaceBinding.isNone)).findSome?
        defaultBinding).map fun binding => { binding with stop := binding.stop + distance } := by
    rw [List.filter_map]
    exact findSome?_shift (fun _ => rfl) _
  rw [merge?, merge?, first, default]
  cases declarations.findSome? braces with
  | some list => simp [BraceList.add_shift]
  | none =>
      simp only [Option.map_none, Option.map_map]
      rfl

theorem find?_localNames_shift (distance : Nat) (declarations : List ImportDeclaration) (name : String) :
    (declarations.map (shift distance)).find? (·.localNames.contains name) =
      (declarations.find? (·.localNames.contains name)).map (shift distance) := by
  rw [List.find?_map]
  apply congrArg (Option.map (shift distance))
  apply congrArg (List.find? · declarations)
  funext declaration
  simp

theorem filter_sameModule_shift (distance : Nat) (declarations : List ImportDeclaration)
    (specifier : String) :
    (declarations.map (shift distance)).filter
        (fun other => other.specifier == specifier && !other.typeOnly) =
      (declarations.filter fun other => other.specifier == specifier && !other.typeOnly).map
        (shift distance) :=
  List.filter_map

end ImportDeclaration

theorem insertStatement_shift {text other : List Char} {declarations : List ImportDeclaration}
    (nonempty : declarations ≠ []) (distance : Nat) (statement : String) :
    insertStatement other (declarations.map (ImportDeclaration.shift distance)) statement =
      (insertStatement text declarations statement).shift distance := by
  rcases Option.ne_none_iff_exists'.mp (mt List.getLast?_eq_none_iff.mp nonempty) with ⟨last, ends⟩
  simp only [insertStatement, List.getLast?_map, ends, Option.map_some]
  rfl

/-- The edit of an import that returned, put at another place. -/
def ImportEdit.withEdit (edit : ImportEdit) (placed : TextEdit) : ImportEdit :=
  { edit with edit := placed }

/-- Where the declarations of a document are found further on, a symbol is imported there as before. An
edit that no declaration gives a place to goes behind the header. -/
theorem ImportStyle.importSymbol_moved {text other : List Char} {distance : Nat}
    (moved : scanImports other = (scanImports text).map (ImportDeclaration.shift distance))
    (style : ImportStyle) (document : Path) (symbol : ExportedSymbol) :
    style.importSymbol document other symbol =
      (style.importSymbol document text symbol).map fun edit =>
        edit.withEdit (if scanImports text = [] then
          insertStatement other [] (style.statement [⟨symbol.name, none⟩] edit.specifier)
        else edit.edit.shift distance) := by
  simp only [importSymbol, moved]
  cases resolveModule document symbol with
  | error error => rfl
  | ok specifier =>
      simp only [bind, Except.bind, ImportDeclaration.find?_localNames_shift,
        ImportDeclaration.filter_sameModule_shift, ImportDeclaration.merge?_shift]
      cases found : (scanImports text).find? fun declaration =>
          declaration.localNames.contains (ImportBinding.mk symbol.name none).localName with
      | some declaration =>
          have nonempty : scanImports text ≠ [] := List.ne_nil_of_mem (List.mem_of_find?_eq_some found)
          simp only [Option.map_some, ImportDeclaration.provides_shift, if_neg nonempty]
          split
          · rfl
          · rfl
      | none =>
          simp only [Option.map_none]
          cases merged : ImportDeclaration.merge? ((scanImports text).filter fun other =>
              other.specifier == specifier && !other.typeOnly)
                (ImportBinding.mk symbol.name none).render with
          | some edit =>
              have nonempty : scanImports text ≠ [] := by
                intro empty
                simp [empty, ImportDeclaration.merge?] at merged
              simp [Except.map, ImportEdit.withEdit, nonempty]
          | none =>
              simp only [Option.map_none, Except.map, ImportEdit.withEdit]
              split
              · rename_i none
                rw [none]
                rfl
              · rename_i nonempty
                rw [insertStatement_shift nonempty]

/-! ## A comment in front of a document -/

/-- A block comment with the given content, on lines of its own. -/
def commentLine (content : List Char) : List Char :=
  '/' :: '*' :: (content ++ ['*', '/', '\n'])

theorem contains_close_line (line : List Char) :
    contains ['*', '/'] (trim line) = contains ['*', '/'] line := by
  rw [contains_close_trim, contains_close_eq]

/-- Where a text does not close a comment, neither its first line nor what comes behind it does. -/
theorem unclosed_of_line {ink content : List Char}
    (closed : contains ['*', '/'] (ink ++ '\n' :: content) = false) :
    contains ['*', '/'] (ink ++ ['\n']) = false ∧ contains ['*', '/'] content = false := by
  rw [List.append_cons] at closed
  constructor <;> rw [Bool.eq_false_iff, ne_eq, contains_iff] at closed ⊢
  · rintro ⟨front, back, shape⟩
    exact closed ⟨front, back ++ content, by rw [shape]; simp⟩
  · rintro ⟨front, back, rfl⟩
    exact closed ⟨ink ++ ['\n'] ++ front, back, by simp⟩

/-- The search for the header goes through a comment line by line and counts none of its lines. -/
theorem exists_lines_of_content {ink content : List Char} (rest : List Char) (oneLine : '\n' ∉ ink)
    (closed : contains ['*', '/'] (ink ++ content) = false) :
    ∃ lines, linesWithEnds (ink ++ content ++ '*' :: '/' :: '\n' :: rest) = lines ++ linesWithEnds rest ∧
      lines.flatten = ink ++ content ++ ['*', '/', '\n'] ∧
      ∀ seen header others, headerLinesFrom seen header true (lines ++ others) =
        headerLinesFrom (seen + lines.length) header false others := by
  induction content generalizing ink with
  | nil =>
      have last : '\n' ∉ ink ++ ['*', '/'] := by simp [oneLine]
      have split := linesWithEnds_append_feed last rest
      refine ⟨[ink ++ ['*', '/'] ++ ['\n']], by simpa using split, by simp, fun seen header others => ?_⟩
      have close : contains ['*', '/'] (trim (ink ++ ['*', '/'] ++ ['\n'])) = true := by
        rw [contains_close_line, contains_iff]
        exact ⟨ink, ['\n'], rfl⟩
      rw [List.singleton_append, headerLinesFrom, if_pos rfl, close]
      rfl
  | cons c content ih =>
      by_cases feed : c = '\n'
      · subst feed
        obtain ⟨unclosed, later⟩ := unclosed_of_line closed
        rw [← contains_close_line] at unclosed
        rcases ih List.not_mem_nil later with ⟨lines, split, text, passes⟩
        refine ⟨(ink ++ ['\n']) :: lines, ?_, ?_, fun seen header others => ?_⟩
        · have first := linesWithEnds_append_feed oneLine (content ++ '*' :: '/' :: '\n' :: rest)
          rw [List.nil_append] at split
          rw [split] at first
          simpa using first
        · rw [List.flatten_cons, text]
          simp
        · rw [List.cons_append, headerLinesFrom, if_pos rfl, unclosed, Bool.not_false, passes,
            List.length_cons]
          congr 1
          omega
      · have onward : '\n' ∉ ink ++ [c] := by
          rw [List.mem_append, List.mem_singleton]
          exact fun member => member.elim oneLine fun same => feed same.symm
        have same : ink ++ c :: content = ink ++ [c] ++ content := by simp
        rw [same] at closed ⊢
        exact ih onward closed

theorem headerLinesFrom_opening {line : List Char} (opens : startsWith ['/', '*'] line = true)
    (header : Nat) (lines : List (List Char)) :
    headerLinesFrom 0 header false (line :: lines) =
      headerLinesFrom 1 header (!contains ['*', '/'] line) lines := by
  rcases startsWith_iff.mp opens with ⟨more, rfl⟩
  have begins : trimStart (['/', '*'] ++ more) = ['/', '*'] ++ more := rfl
  have noInterpreter : startsWith ['#', '!'] (trim (['/', '*'] ++ more)) = false := by
    rw [startsWith_trim (isBlank_eq_false_of_all (by decide)), begins]
    rfl
  have opening : startsWith ['/', '*'] (trim (['/', '*'] ++ more)) = true := by
    rw [startsWith_trim (isBlank_eq_false_of_all (by decide)), begins]
    exact opens
  rw [headerLinesFrom, noInterpreter, opening, contains_close_line]
  rfl

/-- The lines of a comment, none of which is counted to the header on its own. A comment over several
lines that begins with `/*/` seems to be closed on its first line. -/
theorem exists_lines_commentLine {content : List Char} (rest : List Char)
    (closed : contains ['*', '/'] content = false)
    (opens : content.head? = some '/' → '\n' ∉ content) :
    ∃ lines, lines ≠ [] ∧ linesWithEnds (commentLine content ++ rest) = lines ++ linesWithEnds rest ∧
      lines.flatten = commentLine content ∧
      ∀ others, headerLinesFrom 0 0 false (lines ++ others) =
        headerLinesFrom lines.length 0 false others := by
  by_cases oneLine : '\n' ∈ content
  · rcases List.eq_append_cons_of_mem oneLine with ⟨ink, behind, rfl, inkLine⟩
    have slash : startsWith ['/'] (ink ++ ['\n']) = false := by
      have apart : (ink ++ '\n' :: behind).head? ≠ some '/' := fun head => opens head oneLine
      cases ink with
      | nil => rfl
      | cons c ink =>
          have other : c ≠ '/' := by simpa using apart
          simp [startsWith, dropPrefix?, Ne.symm other]
    obtain ⟨inside, later⟩ := unclosed_of_line closed
    have line : '\n' ∉ '/' :: '*' :: ink := by simp [inkLine]
    rcases exists_lines_of_content rest List.not_mem_nil later with ⟨lines, split, text, passes⟩
    rw [List.nil_append] at split text
    refine ⟨('/' :: '*' :: (ink ++ ['\n'])) :: lines, by simp, ?_, ?_, fun others => ?_⟩
    · have first := linesWithEnds_append_feed line (behind ++ '*' :: '/' :: '\n' :: rest)
      rw [split] at first
      simpa [commentLine] using first
    · rw [List.flatten_cons, text]
      simp [commentLine]
    · rw [List.cons_append, headerLinesFrom_opening rfl, contains_close_opening, slash, inside,
        Bool.or_false, Bool.not_false, passes, List.length_cons, Nat.add_comm]
  · have line : '\n' ∉ '/' :: '*' :: (content ++ ['*', '/']) := by simp [oneLine]
    have split := linesWithEnds_append_feed line rest
    refine ⟨[commentLine content], by simp, by simpa [commentLine] using split, by simp,
      fun others => ?_⟩
    have close : contains ['*', '/'] (commentLine content) = true :=
      contains_iff.mpr ⟨'/' :: '*' :: content, ['\n'], by simp [commentLine]⟩
    rw [List.singleton_append, headerLinesFrom_opening rfl, close]
    rfl

/-- The header of a document behind a comment is empty, or takes in all of the comment. -/
theorem splitHeader_behind_comment {content : List Char} (rest : List Char)
    (closed : contains ['*', '/'] content = false)
    (opens : content.head? = some '/' → '\n' ∉ content) :
    (splitHeader (commentLine content ++ rest)).1 = [] ∨
      commentLine content <+: (splitHeader (commentLine content ++ rest)).1 := by
  rcases exists_lines_commentLine rest closed opens with ⟨lines, filled, split, text, passes⟩
  have elsewhere : HeaderState.outside.isStart = (lines.length == 0) := by
    have positive := List.length_pos_iff.mpr filled
    exact (beq_eq_false_iff_ne.mpr (Nat.pos_iff_ne_zero.mp positive)).symm
  have spec := HeaderState.headerLinesFrom_spec elsewhere 0 (linesWithEnds rest)
  have outside : (HeaderState.outside == .inside) = false := rfl
  rw [outside] at spec
  rw [splitHeader_eq, headerLines, split, passes]
  rcases spec with headerless | ⟨front, back, reached, -, -, count, -⟩
  · left
    rw [headerless]
    rfl
  · right
    rw [count, List.take_length_add_append, List.flatten_append, text]
    exact List.prefix_append _ _

/-- Behind a comment the declarations are found as they are without it exactly when none is read from a
place in the comment. Then a symbol is imported as without the comment, and outside of it. -/
theorem importSymbol_behind_comment (content rest : List Char) :
    (scanImports (commentLine content ++ rest) =
        (scanImports rest).map (ImportDeclaration.shift (byteLength (commentLine content))) ↔
      ImportDeclaration.Unread [] (commentLine content) rest) ∧
    (ImportDeclaration.Unread [] (commentLine content) rest →
      ∀ (style : ImportStyle) (document : Path) (symbol : ExportedSymbol),
        (∀ error, style.importSymbol document (commentLine content ++ rest) symbol = .error error ↔
          style.importSymbol document rest symbol = .error error) ∧
        ∀ edit, style.importSymbol document (commentLine content ++ rest) symbol = .ok edit →
          ∃ alone, style.importSymbol document rest symbol = .ok alone ∧
            edit.effect = alone.effect ∧ edit.specifier = alone.specifier ∧
            (scanImports rest ≠ [] →
              edit.edit = alone.edit.shift (byteLength (commentLine content))) ∧
            (contains ['*', '/'] content = false → (content.head? = some '/' → '\n' ∉ content) →
              edit.edit.start = 0 ∨ byteLength (commentLine content) ≤ edit.edit.start)) := by
  have feed : (commentLine content).getLast? = some '\n' := by
    rw [commentLine, List.getLast?_cons_cons]
    have split : '*' :: (content ++ ['*', '/', '\n']) = '*' :: (content ++ ['*', '/']) ++ ['\n'] := by
      simp
    rw [split, List.getLast?_concat]
  have found := @ImportDeclaration.scanImports_append_iff (commentLine content) rest feed
  refine ⟨found, fun unread style document symbol => ?_⟩
  have moved := style.importSymbol_moved (found.mpr unread) document symbol
  rw [moved]
  cases returned : style.importSymbol document rest symbol with
  | error failure => exact ⟨fun error => Iff.rfl, fun edit shape => by simp [Except.map] at shape⟩
  | ok alone =>
      refine ⟨fun error => by simp [Except.map], fun edit shape => ?_⟩
      rcases Except.ok.inj shape with rfl
      refine ⟨alone, rfl, rfl, rfl, fun nonempty => if_neg nonempty, fun closed opens => ?_⟩
      simp only [ImportEdit.withEdit]
      split
      · rcases insertStatement_nil (commentLine content ++ rest)
          (style.statement [⟨symbol.name, none⟩] alone.specifier) with ⟨lead, gap, edit, -⟩
        rw [edit]
        rcases splitHeader_behind_comment rest closed opens with headerless | ⟨more, whole⟩
        · left
          rw [headerless]
          rfl
        · right
          rw [← whole, byteLength_append]
          exact Nat.le_add_right _ _
      · exact .inr (Nat.le_add_left _ _)

/-- An import in a comment on one line is not counted: the name joins the declaration below. -/
theorem importSymbol_behind_comment_on_one_line :
    ∃ alone, ImportStyle.standard.importSymbol ⟨"src/x.ts"⟩ "import \x7b A \x7d from './b';\n".toList
        ⟨"B", .classLike, ⟨"src/b.ts"⟩, none⟩ = .ok alone ∧ ImportEffect.merged = alone.effect ∧
      TextEdit.insert 41 ", B" =
        alone.edit.shift (byteLength (commentLine " import \x7b B \x7d from './b'; ".toList)) ∧
      byteLength (commentLine " import \x7b B \x7d from './b'; ".toList) ≤ 41 := by
  have returned : ImportStyle.standard.importSymbol ⟨"src/x.ts"⟩
      (commentLine " import \x7b B \x7d from './b'; ".toList ++ "import \x7b A \x7d from './b';\n".toList)
      ⟨"B", .classLike, ⟨"src/b.ts"⟩, none⟩ = .ok ⟨.merged, "./b", .insert 41 ", B"⟩ := by
    decide +kernel
  rcases (importSymbol_behind_comment _ _).2 (by decide +kernel) _ _ _ |>.2 _ returned with
    ⟨alone, shape, effect, -, moved, apart⟩
  refine ⟨alone, shape, effect, moved (by decide +kernel), ?_⟩
  rcases apart (by decide +kernel) (by decide) with atStart | behind
  · exact absurd atStart (by decide)
  · exact behind

/-- An import on a line of its own in a comment is found, and then the symbol counts as imported. -/
theorem importSymbol_in_comment :
    contains ['*', '/'] "\nimport \x7b B \x7d from \"./b\";\n".toList = false ∧
      scanImports (commentLine "\nimport \x7b B \x7d from \"./b\";\n".toList ++ "main();\n".toList) ≠
        (scanImports "main();\n".toList).map (ImportDeclaration.shift
          (byteLength (commentLine "\nimport \x7b B \x7d from \"./b\";\n".toList))) ∧
      ImportStyle.standard.importSymbol ⟨"src/x.ts"⟩
        (commentLine "\nimport \x7b B \x7d from \"./b\";\n".toList ++ "main();\n".toList)
        ⟨"B", .classLike, ⟨"src/b.ts"⟩, none⟩ = .ok ⟨.alreadyImported, "./b", .insert 27 ""⟩ :=
  ⟨by decide +kernel, by decide +kernel, by decide +kernel⟩

end AutoImport
