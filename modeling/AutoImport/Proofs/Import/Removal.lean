import AutoImport.Proofs.Import.CommentReader
import AutoImport.Proofs.Import.Repetition

/-!
# What an import takes out of a document

An edit replaces text only between braces that have no binding. There it takes out blanks, and with them
the comments where the braces hold nothing else. Everything in front of that place and behind it stays.
-/

namespace AutoImport

open Text ImportDeclaration

/-! ## Texts of blanks and comments -/

/-- A reader of comments gets through a text and is not left in a comment that nothing ends. -/
def ReadsThrough (state : CommentState) (text : List Char) : Prop :=
  readComments state text = some .code ∨ readComments state text = some .line

instance (state : CommentState) (text : List Char) : Decidable (ReadsThrough state text) :=
  inferInstanceAs (Decidable (_ ∨ _))

/-- Nothing but blanks is left when the comments of a text are blanked exactly when it is a text of blanks
and comments. -/
theorem blankCommentsFrom_blank_iff {state : CommentState} {text : List Char}
    (closed : state = .block → contains ['*', '/'] text = true) :
    (∀ c ∈ blankCommentsFrom state text, isBlank c = true) ↔ ReadsThrough state text := by
  have spaces (rest : List Char) :
      (∀ c ∈ ' ' :: ' ' :: rest, isBlank c = true) ↔ ∀ c ∈ rest, isBlank c = true := by
    have space : isBlank ' ' = true := by decide
    simp [space]
  have blanked (c : Char) (rest : List Char) :
      (∀ d ∈ blankChar c ++ rest, isBlank d = true) ↔ ∀ d ∈ rest, isBlank d = true := by
    rw [List.forall_mem_append]
    exact and_iff_right fun d member => isBlank_of_mem_blankChar member
  induction state, text using blankCommentsFrom.induct with
  | case1 state =>
      cases state with
      | code => simp [blankCommentsFrom, ReadsThrough, readComments]
      | line => simp [blankCommentsFrom, ReadsThrough, readComments]
      | block => exact absurd (closed rfl) (by decide)
  | case2 text ih =>
      rw [blankCommentsFrom, spaces]
      exact ih (by simp)
  | case3 text closedHere ih =>
      rw [blankCommentsFrom, if_pos closedHere, spaces]
      exact ih fun _ => closedHere
  | case4 text notClosed ih =>
      -- Nothing ends this comment: its first mark is kept, and a reader is left in it.
      have ink : isBlank '/' = false := by decide
      have unclosed : behindClose? text = none := by
        simpa [contains_close_eq] using notClosed
      have left : readComments .code ('/' :: '*' :: text) = some .block := by
        rw [readComments, readComments_block, unclosed]
      rw [blankCommentsFrom, if_neg notClosed, ReadsThrough, left]
      simp [ink]
  | case5 c text noLine noBlock ih =>
      have apart : c = '/' → text.head? ≠ some '/' ∧ text.head? ≠ some '*' := by
        rintro rfl
        constructor <;> intro head <;> rcases List.head?_eq_some_iff.mp head with ⟨more, rfl⟩
        · exact noLine more rfl rfl
        · exact noBlock more rfl rfl
      have rest : _ ↔ ReadsThrough .code text := ih (by simp)
      rw [blankCommentsFrom.eq_4 c text noLine noBlock, List.forall_mem_cons, rest, ReadsThrough,
        ReadsThrough, readComments_code_cons apart]
      cases isBlank c <;> simp
  | case6 c text ih =>
      rw [blankCommentsFrom, blanked, ReadsThrough, readComments]
      exact ih (by split <;> simp)
  | case7 text ih =>
      rw [blankCommentsFrom, spaces]
      exact ih (by simp)
  | case8 c text noEnd ih =>
      have apart : c = '*' → text.head? ≠ some '/' := by
        rintro rfl head
        rcases List.head?_eq_some_iff.mp head with ⟨more, rfl⟩
        exact noEnd more rfl rfl
      have later : contains ['*', '/'] text = true := by
        have here := closed rfl
        rw [contains_close_eq, behindClose?.eq_2 c text noEnd] at here
        rw [contains_close_eq, here]
      rw [blankCommentsFrom.eq_7 c text noEnd, blanked, ReadsThrough, readComments_block_cons apart]
      exact ih fun _ => later

/-! ## The place of a binding between braces -/

namespace BraceList

/-- There are comments between the braces, and apart from blanks nothing else. -/
def HoldsOnlyComments (list : BraceList) : Prop :=
  ReadsThrough .code list.content.toList ∧ ∃ c ∈ list.content.toList, isBlank c = false

instance (list : BraceList) : Decidable list.HoldsOnlyComments :=
  inferInstanceAs (Decidable (_ ∧ _))

/-- The parts that an edit between braces cuts their content into. -/
structure Cuts (list : BraceList) (edit : TextEdit) (kept removed after : List Char) : Prop where
  content_eq : list.content.toList = kept ++ (removed ++ after)
  start : edit.start = list.start + byteLength kept
  stop : edit.stop = edit.start + byteLength removed
  reads : ReadsThrough .code removed
  blank : (∀ c ∈ removed, isBlank c = true) ↔ ¬list.HoldsOnlyComments

/-- A binding takes the place of the whole content when this is blanks and comments, and else it takes
the place of nothing. -/
theorem exists_cuts (list : BraceList) (rendered : String) :
    ∃ kept removed after, list.Cuts (list.add rendered) kept removed after := by
  have through : (∀ c ∈ blankComments list.content.toList, isBlank c = true) ↔
      ReadsThrough .code list.content.toList := blankCommentsFrom_blank_iff (by simp)
  rcases trimEnd_append_eq (blankComments list.content.toList) with
    ⟨blanks, shape, blank, none | ⟨front, last, ink, notBlank⟩⟩
  · rw [none, List.nil_append] at shape
    have reads := through.mp (shape ▸ blank)
    refine ⟨[], list.content.toList, [], by simp, ?_, ?_, reads, ?_⟩
    · simp [add, none, span, byteLength]
    · simp [add, none, span]
    · simp [HoldsOnlyComments, reads]
  · obtain ⟨before, after, text, cut⟩ := exists_cutsAt shape ⟨front, last, ink, notBlank⟩ blank
    have code : ¬ReadsThrough .code list.content.toList := by
      intro reads
      have inBlanked : last ∈ blankComments list.content.toList := by
        rw [shape, ink]
        simp
      simp [through.mpr reads last inBlanked] at notBlank
    have notEmpty : (trimEnd (blankComments list.content.toList)).isEmpty = false := by
      simp [ink]
    refine ⟨before, [], after, text, ?_, ?_, .inl rfl, ?_⟩
    · simp only [add, notEmpty, cut.length, Bool.false_eq_true, if_false]
      split <;> rfl
    · simp only [add, notEmpty, Bool.false_eq_true, if_false]
      split <;> rfl
    · simp [HoldsOnlyComments, code]

end BraceList

/-! ## The parts of a document -/

/-- The parts that an edit cuts a document into, and the document after it. -/
structure Text.TextEdit.Cuts (edit : TextEdit) (text front hole back : List Char) : Prop where
  text_eq : text = front ++ (hole ++ back)
  start : edit.start = byteLength front
  stop : edit.stop = byteLength (front ++ hole)
  applied : edit.applied? text = some (front ++ (edit.newText.toList ++ back))

theorem Text.TextEdit.cuts_append {edit : TextEdit} {front hole back : List Char}
    (start : edit.start = byteLength front) (stop : edit.stop = edit.start + byteLength hole) :
    edit.Cuts (front ++ (hole ++ back)) front hole back := by
  rcases edit with ⟨first, last, newText⟩
  obtain rfl : first = byteLength front := start
  obtain rfl : last = byteLength front + byteLength hole := stop
  refine ⟨rfl, rfl, (byteLength_append _ _).symm, ?_⟩
  rw [← List.append_assoc front hole, applied?_append, List.append_assoc]

theorem Text.TextEdit.cuts_insert (front back : List Char) (newText : String) :
    (TextEdit.insert (byteLength front) newText).Cuts (front ++ back) front [] back :=
  @cuts_append _ front [] back rfl rfl

/-- The braces that take a new binding of a module. -/
def filledBraces? (text : List Char) (specifier : String) : Option BraceList :=
  ((scanImports text).filter fun other =>
    other.specifier == specifier && !other.typeOnly).findSome? ImportDeclaration.braces

/-- The binding comes to stand between braces that hold comments and nothing else. -/
def ImportEdit.DropsComments (edit : ImportEdit) (text : List Char) : Prop :=
  edit.effect = .merged ∧ ∃ list ∈ filledBraces? text edit.specifier, list.HoldsOnlyComments

instance (edit : ImportEdit) (text : List Char) : Decidable (edit.DropsComments text) :=
  inferInstanceAs (Decidable (_ ∧ _))

theorem exists_cuts_of_braces {text : List Char} {declaration : ImportDeclaration} {list : BraceList}
    (member : declaration ∈ scanImports text) (plain : declaration.typeOnly = false)
    (has : declaration.braces = some list) (rendered : String) :
    ∃ front hole back, (list.add rendered).Cuts text front hole back ∧ ReadsThrough .code hole ∧
      ((∀ c ∈ hole, isBlank c = true) ↔ ¬list.HoldsOnlyComments) := by
  rcases exists_placed_of_mem member with ⟨before, lead, chars, behind, _, next, placed⟩
  rcases read?_braces placed.read plain has with
    ⟨front, content, back, middle, -, -, spans, rfl, -, -⟩
  rcases BraceList.exists_cuts ⟨_, String.ofList content, bindings content⟩ rendered with
    ⟨kept, removed, after, cuts⟩
  have inside : content = kept ++ (removed ++ after) := by simpa using cuts.content_eq
  have whole : text = (before ++ lead ++ (importWord ++ front) ++ kept) ++
      (removed ++ (after ++ (back ++ middle.rest))) := by
    have rest := spans.passes.rest
    simp only at rest
    rw [placed.reaches.text_eq, rest, inside]
    simp
  refine ⟨before ++ lead ++ (importWord ++ front) ++ kept, removed, after ++ (back ++ middle.rest), ?_,
    cuts.reads, cuts.blank⟩
  rw [whole]
  apply TextEdit.cuts_append _ cuts.stop
  rw [cuts.start]
  simp [byteLength_append, Nat.add_assoc]

theorem exists_cuts_of_default {text : List Char} {declaration : ImportDeclaration}
    {binding : DefaultBinding} (member : declaration ∈ scanImports text)
    (plain : declaration.typeOnly = false) (has : declaration.defaultBinding = some binding)
    (newText : String) :
    ∃ front back, (TextEdit.insert binding.stop newText).Cuts text front [] back := by
  rcases exists_placed_of_mem member with ⟨before, lead, chars, behind, _, next, placed⟩
  rcases exists_default_end placed.read plain has with ⟨front, rest, shape, stop⟩
  have whole : text = (before ++ lead ++ front) ++ rest := by
    simp only at shape
    rw [placed.reaches.text_eq, shape]
    simp
  have place : binding.stop = byteLength (before ++ lead ++ front) := by
    rw [stop, byteLength_append _ front]
  refine ⟨before ++ lead ++ front, rest, ?_⟩
  rw [whole, place]
  exact TextEdit.cuts_insert _ _ _

/-! ## The parts that an import leaves -/

/-- A binding of a module takes out what the braces hold when this is nothing but comments, and else at
most blanks. -/
theorem exists_cuts_of_merge {text : List Char} {specifier rendered : String} {edit : TextEdit}
    (merged : merge? ((scanImports text).filter fun other =>
      other.specifier == specifier && !other.typeOnly) rendered = some edit) :
    ∃ front hole back, edit.Cuts text front hole back ∧ ReadsThrough .code hole ∧
      ((∀ c ∈ hole, isBlank c = true) ↔
        ¬∃ list ∈ filledBraces? text specifier, list.HoldsOnlyComments) := by
  have ofModule {declaration : ImportDeclaration}
      (inModule : declaration ∈ (scanImports text).filter fun other =>
        other.specifier == specifier && !other.typeOnly) :
      declaration ∈ scanImports text ∧ declaration.typeOnly = false := by
    rcases List.mem_filter.mp inModule with ⟨member, isOf⟩
    exact ⟨member, by simpa using (Bool.and_eq_true_iff.mp isOf).2⟩
  rw [merge?] at merged
  split at merged
  · rename_i list search
    obtain rfl := Option.some.inj merged
    rcases List.exists_of_findSome?_eq_some search with ⟨declaration, inModule, has⟩
    rcases ofModule inModule with ⟨member, plain⟩
    rcases exists_cuts_of_braces member plain has rendered with ⟨front, hole, back, cuts, reads, blank⟩
    refine ⟨front, hole, back, cuts, reads, ?_⟩
    rw [blank, filledBraces?, search]
    simp
  · rename_i search
    rcases Option.map_eq_some_iff.mp merged with ⟨binding, found, rfl⟩
    rcases List.exists_of_findSome?_eq_some found with ⟨declaration, inBoth, has⟩
    rcases ofModule (List.mem_filter.mp inBoth).1 with ⟨member, plain⟩
    rcases exists_cuts_of_default member plain has _ with ⟨front, back, cuts⟩
    refine ⟨front, [], back, cuts, .inl rfl, ?_⟩
    rw [filledBraces?, search]
    simp

/-- An import takes out nothing but blanks, unless the braces that it fills hold only comments: then it
takes out these comments. -/
theorem importSymbol_cuts {style : ImportStyle} {document : Path} {text : List Char}
    {symbol : ExportedSymbol} {edit : ImportEdit}
    (returned : style.importSymbol document text symbol = .ok edit) :
    ∃ front hole back, edit.edit.Cuts text front hole back ∧ ReadsThrough .code hole ∧
      ((∀ c ∈ hole, isBlank c = true) ↔ ¬edit.DropsComments text) := by
  rcases ImportStyle.importSymbol_cases returned with
    ⟨-, ⟨declaration, found, -, already, edit_eq⟩ | ⟨-, effect, merged⟩ | ⟨-, inserted, -, edit_eq⟩⟩
  · rcases exists_end_of_mem (List.mem_of_find?_eq_some found) with ⟨front, rest, rfl, stop⟩
    refine ⟨front, [], rest, ?_, .inl rfl, ?_⟩
    · rw [edit_eq, stop]
      exact TextEdit.cuts_insert _ _ _
    · simp [ImportEdit.DropsComments, already]
  · rcases exists_cuts_of_merge merged with ⟨front, hole, back, cuts, reads, blank⟩
    refine ⟨front, hole, back, cuts, reads, ?_⟩
    rw [blank, ImportEdit.DropsComments, effect]
    simp
  · rcases exists_insertStatement text (style.statement [⟨symbol.name, none⟩] edit.specifier) with
      ⟨front, rest, lead, gap, insertion, -, reaches⟩
    refine ⟨front, [], rest, ?_, .inl rfl, ?_⟩
    · rw [edit_eq, insertion, reaches.text_eq]
      exact TextEdit.cuts_insert _ _ _
    · simp [ImportEdit.DropsComments, inserted]

/-- Comments next to a binding stay where they are. -/
theorem importSymbol_cuts_of_comments :
    ∃ front hole back, (TextEdit.insert 10 ", B").Cuts
        "import \x7b A // last\n \x7d from \"./m\"".toList front hole back ∧ ReadsThrough .code hole ∧
      ((∀ c ∈ hole, isBlank c = true) ↔ ¬ImportEdit.DropsComments ⟨.merged, "./m", .insert 10 ", B"⟩
        "import \x7b A // last\n \x7d from \"./m\"".toList) :=
  @importSymbol_cuts .standard ⟨"src/x.ts"⟩ _ ⟨"B", .classLike, ⟨"src/m.ts"⟩, none⟩
    ⟨.merged, "./m", .insert 10 ", B"⟩ (by decide +kernel)

/-- Between braces that hold only a comment, the binding takes the place of the comment. -/
theorem importSymbol_drops_comment :
    ∃ edit, ImportStyle.importSymbol .standard ⟨"src/x.ts"⟩
        ("import \x7b".toList ++ (" /* keep */ ".toList ++ "\x7d from \"./m\";\n".toList))
        ⟨"B", .classLike, ⟨"src/m.ts"⟩, none⟩ = .ok edit ∧
      edit.edit.Cuts
        ("import \x7b".toList ++ (" /* keep */ ".toList ++ "\x7d from \"./m\";\n".toList))
        "import \x7b".toList " /* keep */ ".toList "\x7d from \"./m\";\n".toList ∧
      ¬∀ c ∈ " /* keep */ ".toList, isBlank c = true :=
  ⟨⟨.merged, "./m", ⟨8, 20, " B "⟩⟩, by decide +kernel, ⟨rfl, rfl, rfl, rfl⟩,
    fun blank => absurd (blank '*' (by simp)) (by decide)⟩

end AutoImport
