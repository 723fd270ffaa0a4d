import AutoImport.Import.Declaration
import AutoImport.Proofs.Import.CommentReader

/-!
# Where the comments of a text are

A comment begins at the first place where one can, and the next one is looked for behind it. So the
comments of a text do not overlap, and none begins outside of them.
-/

namespace AutoImport

open Text

/-! ## Comments -/

/-- A comment in front of the given rest of a text. The comment of a line goes up to a line feed or to the
end of the text, and a block comment up to the first `*/`. -/
inductive IsComment : (comment rest : List Char) → Prop where
  | line {content rest : List Char} (oneLine : '\n' ∉ content) (ends : ∀ c ∈ rest.head?, c = '\n') :
      IsComment ('/' :: '/' :: content) rest
  | block {content rest : List Char} (unclosed : ¬['*', '/'] <:+: content) :
      IsComment ('/' :: '*' :: (content ++ ['*', '/'])) rest

theorem IsComment.ne_nil {comment rest : List Char} (isComment : IsComment comment rest) :
    comment ≠ [] := by
  cases isComment <;> exact List.cons_ne_nil _ _

/-- What follows the comment that a text begins with. -/
def behindComment? : List Char → Option (List Char)
  | '/' :: '/' :: text => some (text.dropWhile (· != '\n'))
  | '/' :: '*' :: text => behindClose? text
  | _ => none

/-- The `*` at the end of a content that has no `*/` is not followed by a slash. -/
theorem apart_of_unclosed {c : Char} {content rest : List Char}
    (unclosed : ¬['*', '/'] <:+: c :: content) (more : List Char) (star : c = '*') :
    content ++ '*' :: '/' :: rest = '/' :: more → False := by
  intro shape
  cases content with
  | nil => exact absurd (List.cons.inj shape).1 (by decide)
  | cons d content =>
      rw [star, (List.cons.inj shape).1] at unclosed
      exact unclosed ⟨[], content, rfl⟩

theorem behindClose?_append {content : List Char} (unclosed : ¬['*', '/'] <:+: content)
    (rest : List Char) : behindClose? (content ++ '*' :: '/' :: rest) = some rest := by
  induction content with
  | nil => rfl
  | cons c content ih =>
      rw [List.cons_append, behindClose?.eq_2 _ _ (apart_of_unclosed unclosed)]
      exact ih fun inside => unclosed (inside.trans (List.suffix_cons c content).isInfix)

theorem behindClose?_eq_some_iff {text rest : List Char} :
    behindClose? text = some rest ↔
      ∃ content, ¬['*', '/'] <:+: content ∧ text = content ++ '*' :: '/' :: rest := by
  constructor
  · intro closed
    fun_induction behindClose? text with
    | case1 text =>
        obtain rfl := Option.some.inj closed
        exact ⟨[], by simp, rfl⟩
    | case2 c text noClose ih =>
        rcases ih closed with ⟨content, unclosed, rfl⟩
        refine ⟨c :: content, fun inside => ?_, rfl⟩
        rcases List.infix_cons_iff.mp inside with ⟨behind, shape⟩ | later
        · obtain ⟨rfl, rfl⟩ := List.cons.inj shape
          exact noClose _ rfl rfl
        · exact unclosed later
    | case3 => simp at closed
  · rintro ⟨content, unclosed, rfl⟩
    exact behindClose?_append unclosed rest

theorem behindComment?_eq_some_iff {text rest : List Char} :
    behindComment? text = some rest ↔ ∃ comment, IsComment comment rest ∧ text = comment ++ rest := by
  constructor
  · intro behind
    unfold behindComment? at behind
    split at behind
    · rename_i text
      obtain rfl := Option.some.inj behind
      refine ⟨'/' :: '/' :: text.takeWhile (· != '\n'), .line ?_ ?_, by simp⟩
      · intro member
        simpa using mem_takeWhile_imp member
      · simpa using head?_dropWhile_stops (· != '\n') text
    · rcases behindClose?_eq_some_iff.mp behind with ⟨content, unclosed, rfl⟩
      exact ⟨_, .block unclosed, by simp⟩
    · simp at behind
  · rintro ⟨comment, isComment, rfl⟩
    cases isComment with
    | @line content _ oneLine ends =>
        have all : ∀ c ∈ content, (c != '\n') = true := by
          intro c member
          rw [bne_iff_ne]
          rintro rfl
          exact oneLine member
        have stops : ∀ c ∈ rest.head?, (c != '\n') = false := by simpa using ends
        exact congrArg some (dropWhile_append_of_stop all stops)
    | @block content _ unclosed =>
        rw [List.cons_append, List.cons_append, behindComment?, List.append_assoc]
        exact behindClose?_append unclosed rest

/-- A text is gone through from its start on, comment by comment and else character by character. -/
@[elab_as_elim]
theorem induction_on_comments {motive : List Char → Prop} (nil : motive [])
    (code : ∀ c text, behindComment? (c :: text) = none → motive text → motive (c :: text))
    (comment : ∀ comment rest, IsComment comment rest → motive rest → motive (comment ++ rest))
    (text : List Char) : motive text := by
  induction length : text.length using Nat.strongRecOn generalizing text with
  | ind count ih =>
      cases text with
      | nil => exact nil
      | cons c text =>
          cases behind : behindComment? (c :: text) with
          | none => exact code c text behind (ih text.length (by simp [← length]) text rfl)
          | some rest =>
              rcases behindComment?_eq_some_iff.mp behind with ⟨opening, isComment, shape⟩
              have shorter : rest.length < count := by
                have positive := List.length_pos_iff.mpr isComment.ne_nil
                rw [← length, shape, List.length_append]
                omega
              rw [shape]
              exact comment opening rest isComment (ih rest.length shorter rest rfl)

/-! ## The places of comments -/

/-- The comments of the rest of a text, after `skip` characters that belong to a comment found before. -/
def commentsFrom : (skip offset : Nat) → List Char → List Span
  | _, _, [] => []
  | skip + 1, offset, c :: text => commentsFrom skip (offset + c.utf8Size) text
  | 0, offset, c :: text =>
    match behindComment? (c :: text) with
    | none => commentsFrom 0 (offset + c.utf8Size) text
    | some rest =>
      ⟨offset, offset + (byteLength (c :: text) - byteLength rest)⟩ ::
        commentsFrom (text.length - rest.length) (offset + c.utf8Size) text

/-- The ranges of the comments of a text, in order. -/
def comments (text : List Char) : List Span :=
  commentsFrom 0 0 text

/-- A range has the byte at an offset in it. -/
def Span.Covers (span : Span) (offset : Nat) : Prop :=
  span.start ≤ offset ∧ offset < span.stop

instance (span : Span) (offset : Nat) : Decidable (span.Covers offset) :=
  inferInstanceAs (Decidable (_ ∧ _))

/-- The byte at an offset of a text belongs to a comment. -/
def InComment (text : List Char) (offset : Nat) : Prop :=
  ∃ span ∈ comments text, span.Covers offset

instance (text : List Char) (offset : Nat) : Decidable (InComment text offset) :=
  inferInstanceAs (Decidable (∃ span ∈ _, _))

theorem commentsFrom_append (front rest : List Char) (offset : Nat) :
    commentsFrom front.length offset (front ++ rest) =
      commentsFrom 0 (offset + byteLength front) rest := by
  induction front generalizing offset with
  | nil => rfl
  | cons c front ih =>
      rw [List.length_cons, List.cons_append, commentsFrom, ih, byteLength, Nat.add_assoc]

theorem commentsFrom_cons {c : Char} {text : List Char} (code : behindComment? (c :: text) = none)
    (offset : Nat) :
    commentsFrom 0 offset (c :: text) = commentsFrom 0 (offset + c.utf8Size) text := by
  rw [commentsFrom, code]

theorem commentsFrom_comment {comment rest : List Char} (isComment : IsComment comment rest)
    (offset : Nat) :
    commentsFrom 0 offset (comment ++ rest) =
      ⟨offset, offset + byteLength comment⟩ :: commentsFrom 0 (offset + byteLength comment) rest := by
  have behind := behindComment?_eq_some_iff.mpr ⟨comment, isComment, rfl⟩
  obtain ⟨c, front, rfl⟩ := List.exists_cons_of_ne_nil isComment.ne_nil
  rw [List.cons_append] at behind ⊢
  have bytes : byteLength (c :: (front ++ rest)) - byteLength rest = byteLength (c :: front) := by
    rw [← List.cons_append, byteLength_append, Nat.add_sub_cancel]
  have count : (front ++ rest).length - rest.length = front.length := by
    rw [List.length_append, Nat.add_sub_cancel]
  rw [commentsFrom, behind]
  simp only [bytes, count, commentsFrom_append]
  rw [byteLength, Nat.add_assoc]

theorem le_start_of_mem_commentsFrom {text : List Char} {offset : Nat} {span : Span}
    (member : span ∈ commentsFrom 0 offset text) : offset ≤ span.start := by
  induction text using induction_on_comments generalizing offset with
  | nil => simp [commentsFrom] at member
  | code c text code ih =>
      rw [commentsFrom_cons code] at member
      exact Nat.le_of_add_right_le (ih member)
  | comment comment rest isComment ih =>
      rw [commentsFrom_comment isComment] at member
      rcases List.mem_cons.mp member with rfl | later
      · exact Nat.le_refl _
      · exact Nat.le_of_add_right_le (ih later)

/-- Comments are found in a text one after the other, and there is no further one outside of them. -/
structure AreCommentsOf (spans : List Span) (text : List Char) : Prop where
  ordered : spans.Pairwise fun earlier later => earlier.stop ≤ later.start
  found : ∀ span ∈ spans, ∃ front comment rest, text = front ++ (comment ++ rest) ∧
    IsComment comment rest ∧ span = ⟨byteLength front, byteLength front + byteLength comment⟩
  complete : ∀ front comment rest, text = front ++ (comment ++ rest) → IsComment comment rest →
    ∃ span ∈ spans, span.Covers (byteLength front)

theorem ordered_commentsFrom (text : List Char) (offset : Nat) :
    (commentsFrom 0 offset text).Pairwise fun earlier later => earlier.stop ≤ later.start := by
  induction text using induction_on_comments generalizing offset with
  | nil => exact .nil
  | code c text code ih =>
      rw [commentsFrom_cons code]
      exact ih _
  | comment comment rest isComment ih =>
      rw [commentsFrom_comment isComment]
      exact .cons (fun later member => le_start_of_mem_commentsFrom member) (ih _)

/-- Where a comment is found there is one. -/
theorem exists_comment_of_mem_commentsFrom {before text : List Char} {span : Span}
    (member : span ∈ commentsFrom 0 (byteLength before) text) :
    ∃ front comment rest, before ++ text = front ++ (comment ++ rest) ∧ IsComment comment rest ∧
      span = ⟨byteLength front, byteLength front + byteLength comment⟩ := by
  induction text using induction_on_comments generalizing before with
  | nil => simp [commentsFrom] at member
  | code c text code ih =>
      have size : byteLength before + c.utf8Size = byteLength (before ++ [c]) := by
        simp [byteLength_append, byteLength]
      rw [commentsFrom_cons code, size] at member
      simpa using ih member
  | comment comment rest isComment ih =>
      rw [commentsFrom_comment isComment, ← byteLength_append] at member
      rcases List.mem_cons.mp member with rfl | later
      · exact ⟨before, comment, rest, rfl, isComment, by rw [byteLength_append]⟩
      · simpa using ih later

/-- Where there is a comment, a comment is found. -/
theorem exists_covers_of_isComment {front comment rest text : List Char}
    (isComment : IsComment comment rest) (shape : text = front ++ (comment ++ rest)) (offset : Nat) :
    ∃ span ∈ commentsFrom 0 offset text, span.Covers (offset + byteLength front) := by
  induction text using induction_on_comments generalizing offset front with
  | nil => simp [isComment.ne_nil] at shape
  | code c text code ih =>
      rw [commentsFrom_cons code]
      cases front with
      | nil =>
          have behind := behindComment?_eq_some_iff.mpr ⟨comment, isComment, shape⟩
          simp [code] at behind
      | cons d front =>
          obtain ⟨rfl, later⟩ := List.cons.inj shape
          rw [byteLength, ← Nat.add_assoc]
          exact ih later _
  | comment other more isOther ih =>
      rw [commentsFrom_comment isOther]
      by_cases inside : byteLength front < byteLength other
      · exact ⟨_, List.mem_cons_self, Nat.le_add_right _ _, Nat.add_lt_add_left inside offset⟩
      · obtain ⟨back, rfl, later⟩ :
            ∃ back, front = other ++ back ∧ more = back ++ (comment ++ rest) := by
          rcases List.append_eq_append_iff.mp shape with ⟨back, whole, later⟩ | ⟨gap, rfl, later⟩
          · exact ⟨back, whole, later⟩
          · -- The other comment ends where this one begins.
            have zero : gap.length = 0 := by
              have := length_le_byteLength gap
              rw [byteLength_append] at inside
              omega
            obtain rfl := List.length_eq_zero_iff.mp zero
            exact ⟨[], by simp, by simpa using later.symm⟩
        rcases ih later (offset + byteLength other) with ⟨span, member, covers⟩
        rw [byteLength_append, ← Nat.add_assoc]
        exact ⟨span, List.mem_cons_of_mem _ member, covers⟩

theorem areCommentsOf_comments (text : List Char) : AreCommentsOf (comments text) text where
  ordered := ordered_commentsFrom text 0
  found := fun span member => @exists_comment_of_mem_commentsFrom [] text span member
  complete := by
    intro front comment rest shape isComment
    simpa [comments] using exists_covers_of_isComment isComment shape 0

/-- Marks of one kind mean nothing in a comment of the other kind, and an open `/*` is no comment. -/
example : comments "a /* é // */// /* b\n/* c".toList = [⟨2, 13⟩, ⟨13, 20⟩] := by decide +kernel

end AutoImport
