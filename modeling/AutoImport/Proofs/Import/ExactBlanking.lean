import AutoImport.Proofs.Import.Blanking
import AutoImport.Proofs.Import.CommentSpans
import AutoImport.Proofs.Text.Utf8

/-!
# Blanking is exact

Blanking turns the bytes of comments into spaces, apart from line feeds, and keeps all other bytes. No
comment can be read from what is left, so that blanking a second time changes nothing.
-/

namespace AutoImport

open Text

/-! ## Blanking comment by comment -/

theorem blankCommentsFrom_line_append {content rest : List Char} (oneLine : '\n' ∉ content)
    (ends : ∀ c ∈ rest.head?, c = '\n') :
    blankCommentsFrom .line (content ++ rest) =
      content.flatMap blankChar ++ blankCommentsFrom .code rest := by
  induction content with
  | nil =>
      cases rest with
      | nil => rfl
      | cons c rest =>
          obtain rfl : c = '\n' := ends c rfl
          rfl
  | cons c content ih =>
      have other : (c == '\n') = false :=
        beq_eq_false_iff_ne.mpr (List.ne_of_not_mem_cons oneLine).symm
      rw [List.cons_append, blankCommentsFrom, other, List.flatMap_cons, List.append_assoc,
        ← ih (List.not_mem_of_not_mem_cons oneLine)]
      rfl

theorem blankCommentsFrom_block_append {content : List Char} (unclosed : ¬['*', '/'] <:+: content)
    (rest : List Char) :
    blankCommentsFrom .block (content ++ '*' :: '/' :: rest) =
      (content ++ ['*', '/']).flatMap blankChar ++ blankCommentsFrom .code rest := by
  induction content with
  | nil => rfl
  | cons c content ih =>
      have later := ih fun inside => unclosed (inside.trans (List.suffix_cons c content).isInfix)
      rw [List.cons_append, blankCommentsFrom.eq_7 _ _ (apart_of_unclosed unclosed), later,
        List.cons_append, List.flatMap_cons, List.append_assoc]

theorem blankComments_comment {comment rest : List Char} (isComment : IsComment comment rest) :
    blankComments (comment ++ rest) = comment.flatMap blankChar ++ blankComments rest := by
  cases isComment with
  | @line content _ oneLine ends =>
      rw [List.cons_append, List.cons_append, blankComments, blankCommentsFrom,
        blankCommentsFrom_line_append oneLine ends]
      rfl
  | @block content _ unclosed =>
      have closed : contains ['*', '/'] (content ++ '*' :: '/' :: rest) = true := by
        rw [contains_close_eq, behindClose?_append unclosed]
        rfl
      rw [List.cons_append, List.cons_append, List.append_assoc, blankComments, blankCommentsFrom]
      simp only [List.cons_append, List.nil_append]
      rw [if_pos closed, blankCommentsFrom_block_append unclosed]
      rfl

theorem blankComments_cons {c : Char} {text : List Char} (code : behindComment? (c :: text) = none) :
    blankComments (c :: text) = c :: blankComments text := by
  by_cases opens : c = '/' ∧ ∃ more, text = '*' :: more
  · obtain ⟨rfl, more, rfl⟩ := opens
    have unclosed : ¬contains ['*', '/'] more = true := by
      rw [contains_close_eq, show behindClose? more = none from code]
      simp
    rw [blankComments, blankCommentsFrom, if_neg unclosed]
    rfl
  · rw [blankComments, blankCommentsFrom.eq_4]
    · rfl
    · rintro more rfl rfl
      simp [behindComment?] at code
    · exact fun more slash star => opens ⟨slash, more, star⟩

/-! ## The bytes of a blanked text -/

/-- A byte of a comment after it is blanked: a line feed stays, and all else becomes a space. -/
def blankByte (byte : UInt8) : UInt8 :=
  if byte = 10 then 10 else 32

/-- Only a line feed has the byte of a line feed in it. -/
theorem feed_not_mem_utf8EncodeChar {c : Char} (other : c ≠ '\n') : 10 ∉ String.utf8EncodeChar c := by
  intro member
  by_cases ascii : c.toNat < 128
  · rw [utf8EncodeChar_of_ascii ascii, List.mem_singleton] at member
    have feed := congrArg letterOf member
    rw [letterOf_byteOf (by omega)] at feed
    exact other feed.symm
  · have high := le_toNat_of_mem_utf8EncodeChar (Nat.le_of_not_lt ascii) 10 member
    simp at high

theorem bytesOf_replicate_space (count : Nat) :
    bytesOf (List.replicate count ' ') = List.replicate count 32 := by
  induction count with
  | zero => rfl
  | succ count ih => exact congrArg (32 :: ·) ih

theorem bytesOf_blankChar (c : Char) :
    bytesOf (blankChar c) = (String.utf8EncodeChar c).map blankByte := by
  by_cases feed : c = '\n'
  · rw [feed]
    decide
  · have blank : ∀ byte ∈ (String.utf8EncodeChar c).map blankByte, byte = 32 := by
      intro byte member
      rcases List.mem_map.mp member with ⟨original, inside, rfl⟩
      exact if_neg fun same : original = 10 => feed_not_mem_utf8EncodeChar feed (same ▸ inside)
    rw [blankChar, if_neg (by simpa using feed), bytesOf_replicate_space,
      List.eq_replicate_of_mem blank, List.length_map, String.length_utf8EncodeChar]

theorem bytesOf_flatMap_blankChar (text : List Char) :
    bytesOf (text.flatMap blankChar) = (bytesOf text).map blankByte := by
  induction text with
  | nil => rfl
  | cons c text ih =>
      rw [List.flatMap_cons, bytesOf_append, ih, bytesOf_blankChar, ← List.map_append]
      rfl

/-- Bytes from an offset on, with those blanked that lie in one of the ranges. -/
def blankBytes (spans : List Span) (offset : Nat) (bytes : List UInt8) : List UInt8 :=
  bytes.mapIdx fun index byte =>
    if ∃ span ∈ spans, span.Covers (offset + index) then blankByte byte else byte

theorem blankBytes_append (spans : List Span) (offset : Nat) (front back : List UInt8) :
    blankBytes spans offset (front ++ back) =
      blankBytes spans offset front ++ blankBytes spans (offset + front.length) back := by
  rw [blankBytes, List.mapIdx_append, blankBytes, blankBytes]
  simp only [Nat.add_assoc, Nat.add_comm front.length]

/-- Bytes in front of all ranges stay. -/
theorem blankBytes_before {spans : List Span} {offset : Nat} {bytes : List UInt8}
    (before : ∀ span ∈ spans, offset + bytes.length ≤ span.start) :
    blankBytes spans offset bytes = bytes := by
  refine List.mapIdx_eq_iff.mpr fun index => ?_
  rcases Nat.lt_or_ge index bytes.length with short | past
  · have outside : ¬∃ span ∈ spans, span.Covers (offset + index) := by
      rintro ⟨span, member, starts, -⟩
      have := before span member
      omega
    simp [outside]
  · simp [past]

/-- Bytes that are all in a range are blanked. -/
theorem blankBytes_within {spans : List Span} {span : Span} {offset : Nat} {bytes : List UInt8}
    (member : span ∈ spans) (starts : span.start ≤ offset) (stops : offset + bytes.length ≤ span.stop) :
    blankBytes spans offset bytes = bytes.map blankByte := by
  refine List.mapIdx_eq_iff.mpr fun index => ?_
  rcases Nat.lt_or_ge index bytes.length with short | past
  · have inside : ∃ span ∈ spans, span.Covers (offset + index) :=
      ⟨span, member, by omega, by omega⟩
    simp [inside]
  · simp [past]

/-- A range in front of bytes does not matter to them. -/
theorem blankBytes_behind {span : Span} {spans : List Span} {offset : Nat} (behind : span.stop ≤ offset)
    (bytes : List UInt8) :
    blankBytes (span :: spans) offset bytes = blankBytes spans offset bytes := by
  have outside (index : Nat) : ¬span.Covers (offset + index) := fun covers => by
    have := covers.2
    omega
  simp only [blankBytes, List.mem_cons, exists_eq_or_imp, outside, false_or]

/-- Blanking a text blanks the bytes of its comments. -/
theorem bytesOf_blankComments (text : List Char) (offset : Nat) :
    bytesOf (blankComments text) = blankBytes (commentsFrom 0 offset text) offset (bytesOf text) := by
  induction text using induction_on_comments generalizing offset with
  | nil => rfl
  | code c text code ih =>
      have before : blankBytes (commentsFrom 0 offset (c :: text)) offset (bytesOf [c]) = bytesOf [c] := by
        refine blankBytes_before fun span member => ?_
        rw [commentsFrom_cons code] at member
        simpa [length_bytesOf, byteLength] using le_start_of_mem_commentsFrom member
      have parts (rest : List Char) : bytesOf (c :: rest) = bytesOf [c] ++ bytesOf rest :=
        bytesOf_append [c] rest
      rw [blankComments_cons code, parts (blankComments text), parts text, blankBytes_append, before,
        length_bytesOf, commentsFrom_cons code, ih (offset + c.utf8Size)]
      rfl
  | comment comment rest isComment ih =>
      have within := @blankBytes_within _ _ offset (bytesOf comment)
        (commentsFrom_comment isComment offset ▸ List.mem_cons_self) (Nat.le_refl _)
        (Nat.le_of_eq (by rw [length_bytesOf]))
      rw [blankComments_comment isComment, bytesOf_append, bytesOf_flatMap_blankChar, bytesOf_append,
        blankBytes_append, within, length_bytesOf, commentsFrom_comment isComment,
        blankBytes_behind (Nat.le_refl _), ← ih]

/-! ## Texts without comments -/

/-- A text in which there is no `//` and no `/*` with a `*/` behind it. -/
structure HasNoComment (text : List Char) : Prop where
  noLine : ¬['/', '/'] <:+: text
  noBlock : ∀ before content after, text ≠ before ++ '/' :: '*' :: (content ++ '*' :: '/' :: after)

theorem HasNoComment.tail {c : Char} {text : List Char} (commentless : HasNoComment (c :: text)) :
    HasNoComment text where
  noLine inside := commentless.noLine (inside.trans (List.suffix_cons c text).isInfix)
  noBlock before content after shape :=
    commentless.noBlock (c :: before) content after (by rw [shape]; rfl)

theorem blankComments_eq_self {text : List Char} (commentless : HasNoComment text) :
    blankComments text = text := by
  induction text using induction_on_comments with
  | nil => rfl
  | code c text code ih => rw [blankComments_cons code, ih commentless.tail]
  | comment comment rest isComment ih =>
      cases isComment with
      | @line content _ oneLine ends => exact absurd ⟨[], content ++ rest, rfl⟩ commentless.noLine
      | @block content _ unclosed => exact absurd (by simp) (commentless.noBlock [] content rest)

/-- What is left of a text is found in it where no comment begins. -/
theorem exists_code_of_blanked {text before after ink : List Char} (filled : ink ≠ [])
    (inked : ∀ c ∈ ink, isBlank c = false) (blanked : blankComments text = before ++ (ink ++ after)) :
    ∃ back, behindComment? (ink ++ back) = none ∧ blankComments (ink ++ back) = ink ++ after := by
  induction text using induction_on_comments generalizing before with
  | nil => simp [blankComments, blankCommentsFrom, filled] at blanked
  | code c text code ih =>
      cases before with
      | nil =>
          have blanks := blanks_blankCommentsFrom .code (c :: text)
          rw [← blankComments, blanked, List.nil_append] at blanks
          rcases blanks.exists_rest inked with ⟨back, shape⟩
          rw [shape] at code blanked
          exact ⟨back, code, blanked⟩
      | cons d before =>
          rw [blankComments_cons code] at blanked
          exact ih (List.cons.inj blanked).2
  | comment comment rest isComment ih =>
      rw [blankComments_comment isComment] at blanked
      have blank : ∀ c ∈ comment.flatMap blankChar, isBlank c = true := by
        intro c member
        rcases List.mem_flatMap.mp member with ⟨original, -, inside⟩
        exact isBlank_of_mem_blankChar inside
      rcases exists_behind_blanks blank filled inked blanked with ⟨more, behind⟩
      exact ih behind

/-- The slashes and stars of a comment that is left in a blanked text would be one in the text. -/
theorem hasNoComment_blankComments (text : List Char) : HasNoComment (blankComments text) where
  noLine := by
    rintro ⟨before, after, shape⟩
    rw [List.append_assoc] at shape
    have ink : ∀ c ∈ ['/', '/'], isBlank c = false := isBlank_eq_false_of_all (by decide)
    rcases exists_code_of_blanked (by simp) ink shape.symm with ⟨back, code, -⟩
    simp [behindComment?] at code
  noBlock := by
    intro before content after shape
    have opens : ∀ c ∈ ['/', '*'], isBlank c = false := isBlank_eq_false_of_all (by decide)
    rcases exists_code_of_blanked (by simp) opens shape with ⟨back, code, blanked⟩
    rw [List.cons_append, List.cons_append, List.nil_append] at code blanked
    have kept : blankComments ('/' :: '*' :: back) = '/' :: '*' :: blankComments back := by
      rw [blankComments_cons code, blankComments_cons rfl]
    have behind : blankComments back = content ++ '*' :: '/' :: after := by
      simpa [kept] using blanked
    have blanks := blanks_blankCommentsFrom .code back
    rw [← blankComments, behind] at blanks
    have ink : ∀ c ∈ ['*', '/'], isBlank c = false := isBlank_eq_false_of_all (by decide)
    rcases blanks.isInfix ⟨content, after, by simp⟩ ink with ⟨front, rest, closes⟩
    have closed := contains_iff.mpr ⟨front, rest, closes.symm⟩
    rw [contains_close_eq, show behindClose? back = none from code] at closed
    simp at closed

theorem blankComments_blankComments (text : List Char) :
    blankComments (blankComments text) = blankComments text :=
  blankComments_eq_self (hasNoComment_blankComments text)

theorem bindings_blankComments (content : List Char) :
    ImportDeclaration.bindings (blankComments content) = ImportDeclaration.bindings content := by
  rw [ImportDeclaration.bindings, ImportDeclaration.bindings, blankComments_blankComments]

/-! ## Exactness -/

/-- A text is blanked exactly: the bytes of its comments become spaces, those of line feeds stay, and so do
those outside of comments, and no comment is left. Here 10 is the byte of a line feed and 32 the one of a
space. -/
structure BlanksExactly (text : List Char) : Prop where
  length : (bytesOf (blankComments text)).length = (bytesOf text).length
  feeds : ∀ offset : Nat,
    (bytesOf (blankComments text))[offset]? = some 10 ↔ (bytesOf text)[offset]? = some 10
  outside : ∀ offset : Nat, ¬InComment text offset →
    (bytesOf (blankComments text))[offset]? = (bytesOf text)[offset]?
  inside : ∀ offset : Nat, InComment text offset →
    (bytesOf (blankComments text))[offset]? = some 32 ∨
      (bytesOf (blankComments text))[offset]? = some 10
  comments : AreCommentsOf (comments text) text
  cleared : HasNoComment (blankComments text)
  again : blankComments (blankComments text) = blankComments text
  bindings : ImportDeclaration.bindings (blankComments text) = ImportDeclaration.bindings text

theorem getElem?_bytesOf_blankComments (text : List Char) (offset : Nat) :
    (bytesOf (blankComments text))[offset]? = (bytesOf text)[offset]?.map fun byte =>
      if InComment text offset then blankByte byte else byte := by
  rw [bytesOf_blankComments text 0, blankBytes, List.getElem?_mapIdx, Nat.zero_add]
  rfl

theorem blankByte_eq_feed_iff {byte : UInt8} : blankByte byte = 10 ↔ byte = 10 := by
  rw [blankByte]
  split <;> simp [*]

/-- Offsets in comments are offsets in the text. -/
theorem InComment.lt_length {text : List Char} {offset : Nat} (inComment : InComment text offset) :
    offset < (bytesOf text).length := by
  rcases inComment with ⟨span, member, -, before⟩
  rcases (areCommentsOf_comments text).found span member with ⟨front, comment, rest, rfl, -, rfl⟩
  rw [length_bytesOf, byteLength_append, byteLength_append]
  exact Nat.lt_of_lt_of_le before (by simp only; omega)

theorem blankComments_exact (text : List Char) : BlanksExactly text where
  length := by rw [bytesOf_blankComments text 0, blankBytes, List.length_mapIdx]
  feeds := by
    intro offset
    rw [getElem?_bytesOf_blankComments]
    by_cases inComment : InComment text offset
    · simp [inComment, blankByte_eq_feed_iff]
    · simp [inComment]
  outside := by
    intro offset outside
    simp [getElem?_bytesOf_blankComments, outside]
  inside := by
    intro offset inside
    rw [getElem?_bytesOf_blankComments, List.getElem?_eq_getElem inside.lt_length, Option.map_some,
      if_pos inside, blankByte]
    split
    · exact .inr rfl
    · exact .inl rfl
  comments := areCommentsOf_comments text
  cleared := hasNoComment_blankComments text
  again := blankComments_blankComments text
  bindings := bindings_blankComments text

/-- A space is left for each byte of `é`, and the open `/*` stays. -/
example : blankComments "A/* é */// b\n/*".toList = ("A" ++ "            " ++ "\n/*").toList := by
  decide +kernel

end AutoImport
