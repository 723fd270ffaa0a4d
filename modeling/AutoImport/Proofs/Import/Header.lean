import AutoImport.Proofs.Import.CommentReader
import AutoImport.Proofs.Import.Insertion
import Mathlib.Logic.Basic
import Mathlib.Tactic.SplitIfs

/-!
# What the header consists of

The header is found line by line, from what a line begins with and whether it has a `*/`. It consists
of blanks and whole comments as long as nothing else stands behind a `*/` on a line of it, and a new
statement behind such a header is live code.
-/

namespace AutoImport

open Text

/-! ## The reader on lines -/

/-- Whether a line is an interpreter line. -/
def isInterpreterLine (line : List Char) : Bool :=
  startsWith ['#', '!'] (trim line)

/-- Where a reader is behind a text of blanks and comments that may begin with an interpreter line. -/
def readHeader (text : List Char) : Option CommentState :=
  match linesWithEnds text with
  | [] => some .code
  | first :: lines =>
    if isInterpreterLine first then readComments .code lines.flatten else readComments .code text

/-- Where a reader is behind a line. -/
def readLine (isFirst : Bool) (state : CommentState) (line : List Char) : Option CommentState :=
  if isFirst && isInterpreterLine line then some .code else readComments state line

/-- Where a reader is behind some lines. -/
def readLines (isFirst : Bool) (state : CommentState) : List (List Char) → Option CommentState
  | [] => some state
  | line :: lines => (readLine isFirst state line).bind fun reached => readLines false reached lines

theorem readLine_append_feed (state : CommentState) (ink : List Char) (isFirst : Bool) :
    ∀ reached ∈ readLine isFirst state (ink ++ ['\n']), reached ≠ .line := by
  intro reached found
  rw [readLine] at found
  split at found
  · cases found
    decide
  · rw [readComments_append_feed] at found
    cases before : readComments state ink with
    | none => simp [before] at found
    | some middle =>
        rw [before] at found
        cases found
        cases middle <;> decide

theorem readComments_flatten {lines : List (List Char)} (areLines : AreLines lines)
    (state : CommentState) : readComments state lines.flatten = readLines false state lines := by
  induction areLines generalizing state with
  | nil => cases state <;> rfl
  | last filled oneLine =>
      rw [List.flatten_singleton, readLines, readLine]
      simp [readLines]
  | @cons ink lines oneLine rest ih =>
      have split : ((ink ++ ['\n']) :: lines).flatten = ink ++ '\n' :: lines.flatten := by simp
      rw [split, readLines, readLine, readComments_append_feed, readComments_append_feed]
      cases readComments state ink with
      | none => rfl
      | some reached => exact ih _

theorem readHeader_flatten {lines : List (List Char)} (areLines : AreLines lines) :
    readHeader lines.flatten = readLines true .code lines := by
  rw [readHeader, areLines.linesWithEnds_flatten]
  cases lines with
  | nil => rfl
  | cons line lines =>
      have rest := areLines.cases_head.1
      simp only [readComments_flatten areLines, readComments_flatten rest]
      cases interpreter : isInterpreterLine line <;> simp [readLines, readLine, interpreter]

/-! ## The search for the header -/

/-- Where the search for the header is between two lines. -/
inductive HeaderState where
  | start
  | outside
  | inside
  deriving DecidableEq, Repr

namespace HeaderState

/-- Where a reader of comments is when the search is right. -/
def comment : HeaderState → CommentState
  | .inside => .block
  | _ => .code

/-- Whether no line lies behind. -/
def isStart : HeaderState → Bool
  | .start => true
  | _ => false

/-- Where the search goes on behind a line with the given content of a comment. -/
def behind (content : List Char) : HeaderState :=
  if contains ['*', '/'] content then .outside else .inside

/-- Where the search goes on behind a line, unless it stops there. -/
def next? (state : HeaderState) (line : List Char) : Option HeaderState :=
  match state with
  | .inside => some (behind (trim line))
  | _ =>
    if state.isStart && isInterpreterLine line then some .outside
    else if startsWith ['/', '*'] (trim line) then some (behind (trim line))
    else if (trim line).isEmpty && !state.isStart then some .outside
    else if startsWith ['/', '/'] (trim line) then some .outside
    else none

/-- What the search goes by is right for a reader of comments. -/
def Agrees (state : HeaderState) (read : Option CommentState) : Prop :=
  match state with
  | .inside => read = some .block
  | _ => read = some .code ∨ read = some .line

end HeaderState

/-- The lines of the header. -/
def headerLines (text : List Char) : List (List Char) :=
  (linesWithEnds text).take (headerLinesFrom 0 0 false (linesWithEnds text))

/-- Blanks and whole comments stand behind the first `*/`, if there is one. -/
def isTidyBehind (text : List Char) : Bool :=
  match behindClose? text with
  | none => true
  | some rest => readComments .code rest == some .code || readComments .code rest == some .line

/-- A line behind whose first comment there are blanks and whole comments; a comment that is opened on
it does not seem to be closed by the `*` that opens it. -/
def isTidyLine (state : HeaderState) (line : List Char) : Bool :=
  match state with
  | .inside => isTidyBehind line
  | _ =>
    match dropPrefix? ['/', '*'] (trimStart line) with
    | none => true
    | some content =>
      isTidyBehind content && (!startsWith ['/'] content || (behindClose? content).isSome)

/-- Lines of which each is tidy where the search finds it. -/
def areTidyLines (state : HeaderState) : List (List Char) → Bool
  | [] => true
  | line :: lines =>
    isTidyLine state line && ((state.next? line).map fun reached => areTidyLines reached lines).getD true

/-! ## Tidy lines -/

theorem isTidyBehind_iff {text : List Char} :
    isTidyBehind text = true ↔
      ∀ rest, behindClose? text = some rest →
        readComments .code rest = some .code ∨ readComments .code rest = some .line := by
  rw [isTidyBehind]
  cases behindClose? text <;> simp

namespace HeaderState

theorem behind_eq {content : List Char} :
    behind (trim content) = if (behindClose? content).isSome then .outside else .inside := by
  rw [behind, contains_close_trim]

section Line

variable {state reached : HeaderState} {line : List Char}

theorem isTidyLine_inside_iff (next : HeaderState.inside.next? line = some reached) :
    isTidyLine .inside line = true ↔ reached.Agrees (readComments .block line) := by
  rw [next?, behind_eq, Option.some.injEq] at next
  rw [isTidyLine, isTidyBehind_iff, readComments_block, ← next]
  cases closed : behindClose? line with
  | none => simp [Agrees]
  | some rest => simp [Agrees]

/-- A line that opens a comment is tidy where the search is right behind it. -/
theorem isTidyLine_opening_iff {content : List Char} (opening : trimStart line = '/' :: '*' :: content)
    (outside : state ≠ .inside) :
    isTidyLine state line = true ↔ (behind (trim line)).Agrees (readComments .code line) := by
  have tidy : isTidyLine state line =
      (isTidyBehind content && (!startsWith ['/'] content || (behindClose? content).isSome)) := by
    cases state with
    | inside => exact absurd rfl outside
    | _ => simp [isTidyLine, opening, dropPrefix?]
  have read : readComments .code line = readComments .block content := by
    rw [readComments_trimStart, opening, readComments]
  have close : behind (trim line) =
      if startsWith ['/'] content || (behindClose? content).isSome then .outside else .inside := by
    rw [behind_eq, behindClose?_trimStart, opening, ← contains_close_eq, contains_close_opening,
      contains_close_eq]
  rw [tidy, read, readComments_block, close]
  cases closed : behindClose? content with
  | none =>
      rw [isTidyBehind, closed]
      cases startsWith ['/'] content <;> simp [Agrees]
  | some rest =>
      rw [isTidyBehind, closed]
      cases startsWith ['/'] content <;> simp [Agrees]

/-- On a line that opens no comment nothing can go wrong. -/
theorem isTidyLine_of_not_opening (outside : state ≠ .inside)
    (plain : startsWith ['/', '*'] (trim line) = false) : isTidyLine state line = true := by
  rw [startsWith_trim (isBlank_eq_false_of_all (by decide)), startsWith, Option.isSome_eq_false_iff,
    Option.isNone_iff_eq_none] at plain
  cases state with
  | inside => exact absurd rfl outside
  | _ => simp [isTidyLine, plain]

theorem next?_of_outside (outside : state ≠ .inside) :
    state.next? line =
      if state.isStart && isInterpreterLine line then some .outside
      else if startsWith ['/', '*'] (trim line) then some (behind (trim line))
      else if (trim line).isEmpty && !state.isStart then some .outside
      else if startsWith ['/', '/'] (trim line) then some .outside
      else none := by
  cases state with
  | inside => exact absurd rfl outside
  | _ => rfl

theorem readLine_of_not_opening (outside : state ≠ .inside)
    (plain : startsWith ['/', '*'] (trim line) = false) (next : state.next? line = some reached)
    (oneLine : '\n' ∉ line.dropLast) :
    reached = .outside ∧ (readLine state.isStart .code line = some .code ∨
      readLine state.isStart .code line = some .line) := by
  rcases exists_trim_append_eq line with ⟨front, back, whole, shape, -, backBlank⟩
  rw [next?_of_outside outside, plain, if_neg Bool.false_ne_true] at next
  cases interpreter : state.isStart && isInterpreterLine line with
  | true =>
      rw [interpreter, if_pos rfl] at next
      rw [readLine, interpreter, if_pos rfl]
      exact ⟨(Option.some.inj next).symm, .inl rfl⟩
  | false =>
      rw [interpreter, if_neg Bool.false_ne_true] at next
      rw [readLine, interpreter, if_neg Bool.false_ne_true, readComments_trimStart]
      split_ifs at next with blank comment
      · refine ⟨(Option.some.inj next).symm, .inl ?_⟩
        rw [Bool.and_eq_true, List.isEmpty_iff] at blank
        rw [shape, blank.1, List.nil_append, ← List.append_nil back]
        exact readComments_blank_append backBlank []
      · refine ⟨(Option.some.inj next).symm, ?_⟩
        rw [startsWith_trim (isBlank_eq_false_of_all (by decide))] at comment
        rcases startsWith_iff.mp comment with ⟨content, opening⟩
        have inLine : '\n' ∉ content.dropLast := by
          intro member
          apply oneLine
          rw [whole, opening, ← List.append_assoc,
            List.dropLast_append_of_ne_nil (List.ne_nil_of_mem (List.dropLast_subset _ member))]
          exact List.mem_append_right _ member
        rw [opening]
        exact readComments_lineComment inLine

/-- A line is tidy exactly when the search is right behind it. -/
theorem isTidyLine_iff (next : state.next? line = some reached) (oneLine : '\n' ∉ line.dropLast) :
    isTidyLine state line = true ↔
      reached.Agrees (readLine state.isStart state.comment line) := by
  by_cases within : state = .inside
  · subst within
    exact isTidyLine_inside_iff next
  · have code : state.comment = .code := by
      cases state with
      | inside => exact absurd rfl within
      | _ => rfl
    rw [code]
    cases opening : startsWith ['/', '*'] (trim line) with
    | false =>
        rcases readLine_of_not_opening within opening next oneLine with ⟨rfl, read⟩
        simp only [isTidyLine_of_not_opening within opening, true_iff]
        exact read
    | true =>
        rw [startsWith_trim (isBlank_eq_false_of_all (by decide))] at opening
        rcases startsWith_iff.mp opening with ⟨content, shape⟩
        have noInterpreter : isInterpreterLine line = false := by
          rw [isInterpreterLine, startsWith_trim (isBlank_eq_false_of_all (by decide)), shape]
          rfl
        have reachedEq : reached = behind (trim line) := by
          rw [next?_of_outside within, noInterpreter, Bool.and_false, if_neg Bool.false_ne_true,
            startsWith_trim (isBlank_eq_false_of_all (by decide)), opening, if_pos rfl] at next
          exact (Option.some.inj next).symm
        rw [readLine, noInterpreter, Bool.and_false, reachedEq]
        exact isTidyLine_opening_iff shape within

theorem isStart_of_next? (next : state.next? line = some reached) : reached.isStart = false := by
  have elsewhere (content : List Char) : (behind content).isStart = false := by
    rw [behind]
    split <;> rfl
  by_cases within : state = .inside
  · subst within
    rw [← Option.some.inj next]
    exact elsewhere _
  · rw [next?_of_outside within] at next
    split_ifs at next <;> cases next
    · rfl
    · exact elsewhere _
    · rfl
    · rfl

end Line

/-! ## The search on lines -/

/-- Where the search goes on behind some lines, unless it stops at one of them. -/
def run? (state : HeaderState) : List (List Char) → Option HeaderState
  | [] => some state
  | line :: lines => (state.next? line).bind fun reached => run? reached lines

theorem agrees_comment (state : HeaderState) : state.Agrees (some state.comment) := by
  cases state with
  | inside => rfl
  | _ => exact .inl rfl

/-- Behind a line feed no line comment is left open. -/
theorem Agrees.eq_some_comment {state : HeaderState} {isFirst : Bool} {comment : CommentState}
    {ink : List Char} (agrees : state.Agrees (readLine isFirst comment (ink ++ ['\n']))) :
    readLine isFirst comment (ink ++ ['\n']) = some state.comment := by
  have noLine := readLine_append_feed comment ink isFirst
  cases state with
  | inside => exact agrees
  | _ =>
      rcases agrees with code | line
      · exact code
      · exact absurd rfl (noLine .line line)

/-- Lines are tidy exactly when the search is right behind each of them. -/
theorem areTidyLines_iff {state final : HeaderState} {lines : List (List Char)}
    (areLines : AreLines lines) (ran : state.run? lines = some final) :
    areTidyLines state lines = true ↔
      ∀ front back reached, lines = front ++ back → state.run? front = some reached →
        reached.Agrees (readLines state.isStart state.comment front) := by
  induction lines generalizing state with
  | nil =>
      simp only [areTidyLines, true_iff]
      intro front back reached shape here
      rcases List.append_eq_nil_iff.mp shape.symm with ⟨rfl, -⟩
      cases here
      exact agrees_comment state
  | cons line lines ih =>
      rcases areLines.cases_head with ⟨rest, oneLine, ended⟩
      rcases Option.bind_eq_some_iff.mp ran with ⟨middle, next, later⟩
      have elsewhere := isStart_of_next? next
      have tidy : areTidyLines state (line :: lines) =
          (isTidyLine state line && areTidyLines middle lines) := by
        rw [areTidyLines, next]
        rfl
      have runCons (front : List (List Char)) : state.run? (line :: front) = middle.run? front := by
        rw [run?, next]
        rfl
      rw [tidy, Bool.and_eq_true, isTidyLine_iff next oneLine]
      constructor
      · rintro ⟨here, tidyRest⟩ front back reached shape along
        cases front with
        | nil =>
            cases along
            exact agrees_comment state
        | cons other front =>
            rcases List.cons.inj shape with ⟨rfl, same⟩
            rw [runCons] at along
            rcases ended with rfl | ⟨ink, rfl⟩
            · rcases List.append_eq_nil_iff.mp same.symm with ⟨rfl, -⟩
              cases along
              simpa [readLines] using here
            · have onward := (ih rest later).mp tidyRest front back reached same along
              rw [elsewhere] at onward
              rw [readLines, here.eq_some_comment]
              exact onward
      · intro right
        have here : middle.Agrees (readLine state.isStart state.comment line) := by
          simpa [readLines] using right [line] lines middle rfl (runCons [])
        refine ⟨here, ?_⟩
        rcases ended with rfl | ⟨ink, rfl⟩
        · rfl
        · refine (ih rest later).mpr fun front back reached shape along => ?_
          have onward := right (_ :: front) back reached (congrArg (_ :: ·) shape)
            ((runCons front).trans along)
          rw [readLines, here.eq_some_comment] at onward
          rw [elsewhere]
          exact onward

/-- One line of the search: it stops, or goes on, and then it may count what lies behind. -/
theorem headerLinesFrom_cons {state : HeaderState} {seen : Nat} (start : state.isStart = (seen == 0))
    (header : Nat) (line : List Char) (lines : List (List Char)) :
    (state.next? line = none ∧ headerLinesFrom seen header (state == .inside) (line :: lines) = header) ∨
      ∃ reached counted, state.next? line = some reached ∧
        headerLinesFrom seen header (state == .inside) (line :: lines) =
          headerLinesFrom (seen + 1) counted (reached == .inside) lines ∧
        (counted = header ∨ counted = seen + 1 ∧ reached = .outside) := by
  have inBlock : (behind (trim line) == .inside) = !contains ['*', '/'] (trim line) := by
    rw [behind]
    cases contains ['*', '/'] (trim line) <;> rfl
  by_cases within : state = .inside
  · subst within
    right
    refine ⟨_, header, rfl, ?_, .inl rfl⟩
    rw [inBlock, headerLinesFrom]
    rfl
  · have outside : (state == .inside) = false := beq_eq_false_iff_ne.mpr within
    have notStart : (seen != 0) = !state.isStart := by rw [start]; rfl
    rw [outside, headerLinesFrom, if_neg Bool.false_ne_true, ← start, notStart,
      next?_of_outside within, isInterpreterLine]
    split_ifs
    · exact .inr ⟨_, seen + 1, rfl, rfl, .inr ⟨rfl, rfl⟩⟩
    · exact .inr ⟨_, header, rfl, by rw [inBlock], .inl rfl⟩
    · exact .inr ⟨_, seen + 1, rfl, rfl, .inr ⟨rfl, rfl⟩⟩
    · exact .inr ⟨_, header, rfl, rfl, .inl rfl⟩
    · exact .inl ⟨rfl, rfl⟩

/-- The search counts lines that it has passed, up to one behind which no comment is open unless they
are all lines there are. -/
theorem headerLinesFrom_spec {state : HeaderState} {seen : Nat} (start : state.isStart = (seen == 0))
    (header : Nat) (lines : List (List Char)) :
    headerLinesFrom seen header (state == .inside) lines = header ∨
      ∃ front back reached, lines = front ++ back ∧ state.run? front = some reached ∧
        headerLinesFrom seen header (state == .inside) lines = seen + front.length ∧
        (back = [] ∨ reached = .outside) := by
  induction lines generalizing state seen header with
  | nil => exact .inr ⟨[], [], state, rfl, rfl, rfl, .inl rfl⟩
  | cons line lines ih =>
      rcases headerLinesFrom_cons start header line lines with ⟨-, same⟩ | ⟨reached, counted, next, same, count⟩
      · exact .inl same
      · have elsewhere : reached.isStart = (seen + 1 == 0) := isStart_of_next? next
        have runCons (front : List (List Char)) : state.run? (line :: front) = reached.run? front := by
          rw [run?, next]
          rfl
        rw [same]
        rcases ih elsewhere counted with whole | ⟨front, back, final, rfl, along, passed, ends⟩
        · rcases count with rfl | ⟨rfl, rfl⟩
          · exact .inl whole
          · exact .inr ⟨[line], lines, .outside, rfl, runCons [], whole, .inr rfl⟩
        · refine .inr ⟨line :: front, back, final, rfl, (runCons front).trans along, ?_, ends⟩
          rw [passed, List.length_cons]
          omega

end HeaderState

/-! ## The text of the header -/

theorem isInterpreterLine_append_feed (line : List Char) :
    isInterpreterLine (line ++ ['\n']) = isInterpreterLine line := by
  rw [isInterpreterLine, trim_append_blank line (List.forall_mem_singleton.mpr rfl), isInterpreterLine]

theorem readHeader_of_not_mem {text : List Char} (oneLine : '\n' ∉ text) :
    readHeader text = if isInterpreterLine text then some .code else readComments .code text := by
  cases text with
  | nil => rfl
  | cons c text =>
      rw [readHeader, linesWithEnds_of_not_mem (by simp) oneLine]
      rfl

theorem readHeader_append_rest {ink : List Char} (oneLine : '\n' ∉ ink) (rest : List Char) :
    readHeader (ink ++ '\n' :: rest) =
      if isInterpreterLine ink then readComments .code rest
      else readComments .code (ink ++ '\n' :: rest) := by
  rw [readHeader, linesWithEnds_append_feed oneLine]
  simp only [isInterpreterLine_append_feed, flatten_linesWithEnds]

theorem readComments_concat_feed (state : CommentState) (text : List Char) :
    readComments state (text ++ ['\n']) = (readComments state text).map afterFeed := by
  rw [readComments_append_feed]
  cases readComments state text with
  | none => rfl
  | some reached => cases reached <;> rfl

/-- Behind a line feed no line comment is left open. -/
theorem readHeader_concat_feed (text : List Char) :
    readHeader (text ++ ['\n']) = (readHeader text).map afterFeed := by
  by_cases oneLine : '\n' ∈ text
  · rcases List.eq_append_cons_of_mem oneLine with ⟨ink, rest, rfl, inkLine⟩
    have split : ink ++ '\n' :: rest ++ ['\n'] = ink ++ '\n' :: (rest ++ ['\n']) := by simp
    rw [split, readHeader_append_rest inkLine, readHeader_append_rest inkLine, readComments_concat_feed,
      ← split, readComments_concat_feed]
    split <;> rfl
  · rw [readHeader_append_rest oneLine, readHeader_of_not_mem oneLine, readComments_concat_feed]
    split <;> rfl

theorem splitHeader_eq (text : List Char) : (splitHeader text).1 = (headerLines text).flatten := by
  rfl

/-- The search passes the lines of the header. -/
theorem exists_run_headerLines (text : List Char) :
    ∃ rest reached, linesWithEnds text = headerLines text ++ rest ∧
      HeaderState.start.run? (headerLines text) = some reached ∧
      (rest = [] ∨ reached ≠ .inside) := by
  have spec := @HeaderState.headerLinesFrom_spec .start 0 rfl 0 (linesWithEnds text)
  have outside : (HeaderState.start == .inside) = false := rfl
  rw [outside] at spec
  rw [headerLines]
  rcases spec with headerless | ⟨front, back, reached, shape, along, count, ends⟩
  · refine ⟨linesWithEnds text, .start, ?_, ?_, .inr (by decide)⟩
    · rw [headerless]
      rfl
    · rw [headerless]
      rfl
  · have taken : (linesWithEnds text).take (headerLinesFrom 0 0 false (linesWithEnds text)) = front := by
      rw [count, Nat.zero_add, shape]
      exact List.take_left
    rw [taken]
    refine ⟨back, reached, shape, along, ?_⟩
    rcases ends with atEnd | outside
    · exact .inl atEnd
    · exact .inr (by simp [outside])

theorem areLines_headerLines (text : List Char) : AreLines (headerLines text) := by
  rcases exists_run_headerLines text with ⟨rest, reached, shape, -⟩
  exact (shape ▸ areLines_linesWithEnds text).of_append

/-- At the start of a line no line comment is open. -/
theorem readHeader_ne_line {text : List Char} (atLine : text = [] ∨ text.getLast? = some '\n') :
    readHeader text ≠ some .line := by
  rcases atLine with rfl | feed
  · simp [readHeader, linesWithEnds]
  · rcases List.getLast?_eq_some_iff.mp feed with ⟨front, rfl⟩
    rw [readHeader_concat_feed]
    intro line
    rcases Option.map_eq_some_iff.mp line with ⟨state, -, after⟩
    cases state <;> simp [afterFeed] at after

/-- A header of tidy lines is blanks and whole comments, unless the document ends in an open one. -/
theorem readHeader_splitHeader {text : List Char}
    (tidy : areTidyLines .start (headerLines text) = true) (closed : readHeader text ≠ some .block) :
    readHeader (splitHeader text).1 = some .code ∨
      readHeader (splitHeader text).1 = some .line ∧ (splitHeader text).2 = [] := by
  rcases exists_run_headerLines text with ⟨rest, reached, shape, along, ends⟩
  have areLines := areLines_headerLines text
  have right := (HeaderState.areTidyLines_iff areLines along).mp tidy (headerLines text) [] reached
    (by simp) along
  have read : readLines HeaderState.start.isStart HeaderState.start.comment (headerLines text) =
      readHeader (splitHeader text).1 := by
    rw [splitHeader_eq, readHeader_flatten areLines]
    rfl
  rw [read] at right
  have whole : rest = [] → (splitHeader text).1 = text := by
    rintro rfl
    rw [List.append_nil] at shape
    rw [splitHeader_eq, ← shape, flatten_linesWithEnds]
  rcases splitHeader_spec text with ⟨cut, ended⟩
  cases reached with
  | inside =>
      have all := whole (ends.resolve_right (by simp))
      rw [all] at right
      exact absurd right closed
  | _ =>
      rcases right with code | line
      · exact .inl code
      · rcases or_assoc.mpr ended with atLine | ended
        · exact absurd line (readHeader_ne_line atLine)
        · exact .inr ⟨line, ended⟩

/-- The search for the header is right behind each of its lines exactly when they are tidy. Then the
header is blanks and whole comments, and a new statement goes behind these and in front of all code. -/
theorem insertStatement_behind_header (text : List Char) (statement : String) :
    (areTidyLines .start (headerLines text) = true ↔
      ∀ front back reached, headerLines text = front ++ back →
        HeaderState.start.run? front = some reached →
        reached.Agrees (readHeader front.flatten)) ∧
    (areTidyLines .start (headerLines text) = true → readHeader text ≠ some .block →
      (readHeader (splitHeader text).1 = some .code ∨
        readHeader (splitHeader text).1 = some .line ∧ (splitHeader text).2 = []) ∧
      ∃ lead gap : List Char,
        (insertStatement text [] statement).applied? text =
          some ((splitHeader text).1 ++ lead ++ statement.toList ++ gap ++ (splitHeader text).2) ∧
        (lead = [] ∨ lead = ['\n']) ∧ gap.head? = some '\n' ∧
        readHeader ((splitHeader text).1 ++ lead) = some .code) := by
  constructor
  · rcases exists_run_headerLines text with ⟨rest, reached, shape, along, -⟩
    have areLines := areLines_headerLines text
    rw [HeaderState.areTidyLines_iff areLines along]
    refine forall₄_congr fun front back state split => ?_
    have frontLines : AreLines front := by
      rw [split] at areLines
      exact areLines.of_append
    rw [readHeader_flatten frontLines]
    rfl
  · intro tidy closed
    have header := readHeader_splitHeader tidy closed
    refine ⟨header, ?_⟩
    rcases insertStatement_nil text statement with ⟨lead, gap, edit, led, gapped⟩
    refine ⟨lead.toList, gap.toList, ?_, ?_, ?_, ?_⟩
    · have applied := TextEdit.applied?_insert (splitHeader text).1 (splitHeader text).2
        (lead ++ statement ++ gap)
      rw [← (splitHeader_spec text).1, ← edit] at applied
      rw [applied]
      simp
    · rcases led with ⟨rfl, -⟩ | rfl
      · exact .inl rfl
      · exact .inr rfl
    · rcases gapped with rfl | rfl <;> rfl
    · rcases led with ⟨rfl, atLine⟩ | rfl
      · rw [String.toList_empty, List.append_nil]
        exact header.resolve_right fun line => readHeader_ne_line atLine line.1
      · rw [show ("\n" : String).toList = ['\n'] from rfl, readHeader_concat_feed]
        rcases header with code | ⟨line, -⟩
        · rw [code]
          rfl
        · rw [line]
          rfl

/-- A script with an interpreter line and a comment about the file. -/
def commentedScript : List Char :=
  "#!/usr/bin/env node\n/**\n * Entry point.\n */\n\nmain();\n".toList

theorem insertStatement_behind_header_of_script :
    ∃ lead gap : List Char,
      (insertStatement commentedScript [] "import './b';").applied? commentedScript =
        some ("#!/usr/bin/env node\n/**\n * Entry point.\n */\n\n".toList ++ lead ++
          "import './b';".toList ++ gap ++ "main();\n".toList) ∧
      (lead = [] ∨ lead = ['\n']) ∧ gap.head? = some '\n' ∧
      readHeader ("#!/usr/bin/env node\n/**\n * Entry point.\n */\n\n".toList ++ lead) = some .code := by
  have split : splitHeader commentedScript =
      ("#!/usr/bin/env node\n/**\n * Entry point.\n */\n\n".toList, "main();\n".toList) := by
    decide +kernel
  have behind := ((insertStatement_behind_header commentedScript "import './b';").2
    (by decide +kernel) (by decide +kernel)).2
  rw [split] at behind
  exact behind

/-- Code behind a comment on a line of the header is counted to the header, and so is a line that opens
a comment by `/*/`, which the search takes for closed. -/
theorem splitHeader_of_untidy :
    (readHeader "/* a */ f();\n\ng();\n".toList ≠ some .block ∧
      (splitHeader "/* a */ f();\n\ng();\n".toList).1 = "/* a */ f();\n\n".toList ∧
      readHeader "/* a */ f();\n\n".toList = none) ∧
    readHeader "/*/\n\nfoo*/\nbar();\n".toList ≠ some .block ∧
      (splitHeader "/*/\n\nfoo*/\nbar();\n".toList).1 = "/*/\n\n".toList ∧
      readHeader "/*/\n\n".toList = some .block := by
  decide +kernel

end AutoImport
