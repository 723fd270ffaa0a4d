import AutoImport.Import.Comment
import AutoImport.Proofs.Text.Search

/-!
# Text put behind the last character outside of comments

Where a text with its comments blanked ends, apart from blanks, something can be put into the text. As
long as it neither begins nor ends a comment, the comments stay what they were.
-/

namespace AutoImport

open Text

/-- A text that ends with no blank. -/
def EndsInInk (text : List Char) : Prop :=
  ∃ front c, text = front ++ [c] ∧ isBlank c = false

theorem EndsInInk.ne_nil {text : List Char} (ends : EndsInInk text) : text ≠ [] := by
  obtain ⟨front, c, rfl, -⟩ := ends
  simp

/-- A first character is all there is before the blanks, or the rest ends in ink as well. -/
theorem EndsInInk.cases_head {c : Char} {rest ink blanks : List Char} (ends : EndsInInk ink)
    (shape : c :: rest = ink ++ blanks) :
    (ink = [c] ∧ isBlank c = false ∧ rest = blanks) ∨
      ∃ more, ink = c :: more ∧ EndsInInk more ∧ rest = more ++ blanks := by
  obtain ⟨front, last, rfl, notBlank⟩ := ends
  cases front with
  | nil =>
      obtain ⟨rfl, rfl⟩ := List.cons.inj shape
      exact .inl ⟨rfl, notBlank, rfl⟩
  | cons d front =>
      obtain ⟨rfl, rfl⟩ := List.cons.inj shape
      exact .inr ⟨front ++ [last], rfl, ⟨front, last, rfl, notBlank⟩, by simp⟩

/-- Blanks at the front do not reach to where the ink ends. -/
theorem EndsInInk.strip {lead rest ink blanks : List Char} (ends : EndsInInk ink)
    (blank : ∀ c ∈ lead, isBlank c = true) (shape : lead ++ rest = ink ++ blanks) :
    ∃ more, ink = lead ++ more ∧ EndsInInk more ∧ rest = more ++ blanks := by
  induction lead generalizing ink with
  | nil => exact ⟨ink, rfl, ends, shape⟩
  | cons c lead ih =>
      rcases ends.cases_head shape with ⟨-, notBlank, -⟩ | ⟨more, rfl, endsMore, restShape⟩
      · simp [blank c List.mem_cons_self] at notBlank
      · obtain ⟨deep, rfl, endsDeep, deepShape⟩ :=
          ih endsMore (fun d member => blank d (List.mem_cons_of_mem _ member)) restShape
        exact ⟨deep, rfl, endsDeep, deepShape⟩

theorem isBlank_of_mem_blankChar {c d : Char} (member : d ∈ blankChar c) : isBlank d = true := by
  rw [blankChar] at member
  split at member
  · rename_i feed
    obtain rfl := List.mem_singleton.mp member
    rw [beq_iff_eq.mp feed]
    decide
  · rw [List.eq_of_mem_replicate member]
    decide

theorem byteLength_replicate_space (count : Nat) : byteLength (List.replicate count ' ') = count := by
  induction count with
  | zero => rfl
  | succ count ih =>
      have space : ' '.utf8Size = 1 := rfl
      rw [List.replicate_succ, byteLength, ih, space, Nat.add_comm]

theorem byteLength_blankChar (c : Char) : byteLength (blankChar c) = c.utf8Size := by
  rw [blankChar]
  split
  · simp [byteLength]
  · exact byteLength_replicate_space _

/-- A text that neither begins nor ends a comment. -/
structure Plain (text : List Char) : Prop where
  filled : text ≠ []
  noStar : '*' ∉ text
  noSlash : '/' ∉ text

theorem contains_close_of_append {inserted after : List Char} (noStar : '*' ∉ inserted)
    (found : contains ['*', '/'] (inserted ++ after) = true) : contains ['*', '/'] after = true := by
  induction inserted with
  | nil => exact found
  | cons c inserted ih =>
      have apart : '*' ≠ c := fun same => noStar (same ▸ List.mem_cons_self)
      refine ih (fun member => noStar (List.mem_cons_of_mem _ member)) ?_
      simpa [contains, startsWith, dropPrefix?, apart] using found

/-- A plain text in the middle does not end a comment. -/
theorem Plain.contains_close {inserted : List Char} (plain : Plain inserted) {before after : List Char}
    (found : contains ['*', '/'] (before ++ (inserted ++ after)) = true) :
    contains ['*', '/'] (before ++ after) = true := by
  induction before with
  | nil => exact contains_close_of_append plain.noStar found
  | cons c before ih =>
      rw [List.cons_append, contains, Bool.or_eq_true] at found ⊢
      rcases found with start | later
      · refine .inl ?_
        cases before with
        | nil =>
            obtain ⟨d, inserted, rfl⟩ := List.exists_cons_of_ne_nil plain.filled
            have apart : '/' ≠ d := fun same => plain.noSlash (same ▸ List.mem_cons_self)
            simp [startsWith, dropPrefix?, apart] at start
        | cons d before =>
            simp only [startsWith, dropPrefix?, List.cons_append, beq_iff_eq] at start ⊢
            split
            · rename_i star
              rw [if_pos star] at start
              split
              · rfl
              · rename_i noSlash
                simp [noSlash] at start
            · rename_i noStar
              simp [noStar] at start
      · exact .inr (ih later)

theorem contains_close_append {before : List Char} (found : contains ['*', '/'] before = true)
    (after : List Char) : contains ['*', '/'] (before ++ after) = true := by
  obtain ⟨left, right, rfl⟩ := contains_iff.mp found
  exact contains_iff.mpr ⟨left, right ++ after, by simp⟩

theorem blankCommentsFrom_code_append {inserted : List Char} (noSlash : '/' ∉ inserted)
    (text : List Char) :
    blankCommentsFrom .code (inserted ++ text) = inserted ++ blankCommentsFrom .code text := by
  induction inserted with
  | nil => rfl
  | cons c inserted ih =>
      have apart : c ≠ '/' := fun same => noSlash (same ▸ List.mem_cons_self)
      rw [List.cons_append, blankCommentsFrom, ih fun member => noSlash (List.mem_cons_of_mem _ member)]
      · rfl
      · exact fun _ same => absurd same apart
      · exact fun _ same => absurd same apart

/-- What a cut of a text does when the text has the given ink and blanks once its comments are blanked:
it is made where the ink ends, and a plain text that is put there stays as it is. -/
structure CutsAt (state : CommentState) (ink blanks before after : List Char) : Prop where
  filled : before ≠ []
  length : byteLength before = byteLength ink
  closed : state = .block → contains ['*', '/'] before = true
  insert : ∀ inserted, Plain inserted →
    blankCommentsFrom state (before ++ (inserted ++ after)) = ink ++ (inserted ++ blanks)

namespace CutsAt

variable {ink blanks before after : List Char}

theorem line (cut : CutsAt .line ink blanks before after) :
    CutsAt .code (' ' :: ' ' :: ink) blanks ('/' :: '/' :: before) after where
  filled := by simp
  length := by
    rw [byteLength, byteLength, cut.length]
    rfl
  closed := by simp
  insert inserted plain := by
    rw [List.cons_append, List.cons_append, blankCommentsFrom, cut.insert inserted plain]
    rfl

theorem block (cut : CutsAt .block ink blanks before after) :
    CutsAt .code (' ' :: ' ' :: ink) blanks ('/' :: '*' :: before) after where
  filled := by simp
  length := by
    rw [byteLength, byteLength, cut.length]
    rfl
  closed := by simp
  insert inserted plain := by
    rw [List.cons_append, List.cons_append, blankCommentsFrom,
      if_pos (contains_close_append (cut.closed rfl) _), cut.insert inserted plain]
    rfl

theorem unclosed (unended : ¬contains ['*', '/'] (before ++ after) = true)
    (cut : CutsAt .code ink blanks before after) :
    CutsAt .code ('/' :: '*' :: ink) blanks ('/' :: '*' :: before) after where
  filled := by simp
  length := by rw [byteLength, byteLength, cut.length, byteLength, byteLength]
  closed := by simp
  insert inserted plain := by
    have stillUnended : ¬contains ['*', '/'] (before ++ (inserted ++ after)) = true :=
      fun found => unended (plain.contains_close found)
    rw [List.cons_append, List.cons_append, blankCommentsFrom, if_neg stillUnended,
      cut.insert inserted plain]
    rfl

theorem behind_unclosed {text : List Char} (unended : ¬contains ['*', '/'] text = true) :
    CutsAt .code ['/', '*'] (blankCommentsFrom .code text) ['/', '*'] text where
  filled := by simp
  length := rfl
  closed := by simp
  insert inserted plain := by
    have stillUnended : ¬contains ['*', '/'] (inserted ++ text) = true :=
      fun found => unended (contains_close_of_append plain.noStar found)
    rw [List.cons_append, List.cons_append, List.nil_append, blankCommentsFrom, if_neg stillUnended,
      blankCommentsFrom_code_append plain.noSlash]
    rfl

theorem behind_char (c : Char) (text : List Char) :
    CutsAt .code [c] (blankCommentsFrom .code text) [c] text where
  filled := by simp
  length := rfl
  closed := by simp
  insert inserted plain := by
    -- A plain text has no slash and no star in front, so `c` begins no comment with it.
    obtain ⟨d, rest, rfl⟩ := List.exists_cons_of_ne_nil plain.filled
    have noSlash : d ≠ '/' := fun same => plain.noSlash (same ▸ List.mem_cons_self)
    have noStar : d ≠ '*' := fun same => plain.noStar (same ▸ List.mem_cons_self)
    have stays := blankCommentsFrom.eq_4 c (d :: rest ++ text)
      (fun _ _ same => noSlash (List.cons.inj same).1) fun _ _ same => noStar (List.cons.inj same).1
    rw [List.cons_append, List.nil_append, stays, blankCommentsFrom_code_append plain.noSlash]
    rfl

theorem char {c : Char} (noLine : ∀ rest, c = '/' → before ++ after = '/' :: rest → False)
    (noBlock : ∀ rest, c = '/' → before ++ after = '*' :: rest → False)
    (cut : CutsAt .code ink blanks before after) :
    CutsAt .code (c :: ink) blanks (c :: before) after where
  filled := by simp
  length := by rw [byteLength, byteLength, cut.length]
  closed := by simp
  insert inserted plain := by
    obtain ⟨d, rest, rfl⟩ := List.exists_cons_of_ne_nil cut.filled
    have stays := blankCommentsFrom.eq_4 c (d :: rest ++ (inserted ++ after))
      (fun _ slash same => noLine _ slash (congrArg (· :: _) (List.cons.inj same).1))
      fun _ slash same => noBlock _ slash (congrArg (· :: _) (List.cons.inj same).1)
    rw [List.cons_append, stays, cut.insert inserted plain]
    rfl

theorem lineChar {c : Char} (cut : CutsAt (if c == '\n' then .code else .line) ink blanks before after) :
    CutsAt .line (blankChar c ++ ink) blanks (c :: before) after where
  filled := by simp
  length := by rw [byteLength, byteLength_append, byteLength_blankChar, cut.length]
  closed := by simp
  insert inserted plain := by
    rw [List.cons_append, blankCommentsFrom, cut.insert inserted plain, List.append_assoc]

theorem close (cut : CutsAt .code ink blanks before after) :
    CutsAt .block (' ' :: ' ' :: ink) blanks ('*' :: '/' :: before) after where
  filled := by simp
  length := by
    rw [byteLength, byteLength, cut.length]
    rfl
  closed _ := contains_iff.mpr ⟨[], before, rfl⟩
  insert inserted plain := by
    rw [List.cons_append, List.cons_append, blankCommentsFrom, cut.insert inserted plain]
    rfl

theorem blockChar {c : Char} (noEnd : ∀ rest, c = '*' → before ++ after = '/' :: rest → False)
    (cut : CutsAt .block ink blanks before after) :
    CutsAt .block (blankChar c ++ ink) blanks (c :: before) after where
  filled := by simp
  length := by rw [byteLength, byteLength_append, byteLength_blankChar, cut.length]
  closed _ := by rw [contains, cut.closed rfl, Bool.or_true]
  insert inserted plain := by
    obtain ⟨d, rest, rfl⟩ := List.exists_cons_of_ne_nil cut.filled
    have stays := blankCommentsFrom.eq_7 c (d :: rest ++ (inserted ++ after))
      fun _ star same => noEnd _ star (congrArg (· :: _) (List.cons.inj same).1)
    rw [List.cons_append, stays, cut.insert inserted plain, List.append_assoc]

end CutsAt

/-- A text can be cut where its ink ends once its comments are blanked. -/
theorem exists_cutsAt {state : CommentState} {text ink blanks : List Char}
    (blanked : blankCommentsFrom state text = ink ++ blanks) (ends : EndsInInk ink)
    (blank : ∀ c ∈ blanks, isBlank c = true) :
    ∃ before after, text = before ++ after ∧ CutsAt state ink blanks before after := by
  have blankPair : ∀ c ∈ [' ', ' '], isBlank c = true := List.all_eq_true.mp rfl
  induction state, text using blankCommentsFrom.induct generalizing ink with
  | case1 state =>
      have empty : ink = [] := by
        rw [blankCommentsFrom] at blanked
        exact (List.append_eq_nil_iff.mp blanked.symm).1
      exact absurd empty ends.ne_nil
  | case2 text ih =>
      rw [blankCommentsFrom] at blanked
      obtain ⟨more, rfl, endsMore, shape⟩ := ends.strip blankPair blanked
      obtain ⟨before, after, rfl, cut⟩ := ih shape endsMore
      exact ⟨'/' :: '/' :: before, after, rfl, cut.line⟩
  | case3 text closed ih =>
      rw [blankCommentsFrom, if_pos closed] at blanked
      obtain ⟨more, rfl, endsMore, shape⟩ := ends.strip blankPair blanked
      obtain ⟨before, after, rfl, cut⟩ := ih shape endsMore
      exact ⟨'/' :: '*' :: before, after, rfl, cut.block⟩
  | case4 text unended ih =>
      rw [blankCommentsFrom, if_neg unended] at blanked
      obtain ⟨more, rfl, endsMore, shape⟩ : ∃ more, ink = '/' :: more ∧ EndsInInk more ∧
          '*' :: blankCommentsFrom .code text = more ++ blanks := by
        rcases ends.cases_head blanked with ⟨-, -, rfl⟩ | found
        · exact absurd (blank '*' List.mem_cons_self) (by decide)
        · exact found
      rcases endsMore.cases_head shape with ⟨rfl, -, rfl⟩ | ⟨deep, rfl, endsDeep, deepShape⟩
      · exact ⟨['/', '*'], text, rfl, .behind_unclosed unended⟩
      · obtain ⟨before, after, rfl, cut⟩ := ih deepShape endsDeep
        exact ⟨'/' :: '*' :: before, after, rfl, cut.unclosed unended⟩
  | case5 c text noLine noBlock ih =>
      rw [blankCommentsFrom.eq_4 c text noLine noBlock] at blanked
      rcases ends.cases_head blanked with ⟨rfl, -, rfl⟩ | ⟨more, rfl, endsMore, shape⟩
      · exact ⟨[c], text, rfl, .behind_char c text⟩
      · obtain ⟨before, after, rfl, cut⟩ := ih shape endsMore
        exact ⟨c :: before, after, rfl, cut.char noLine noBlock⟩
  | case6 c text ih =>
      rw [blankCommentsFrom] at blanked
      obtain ⟨more, rfl, endsMore, shape⟩ := ends.strip (fun _ => isBlank_of_mem_blankChar) blanked
      obtain ⟨before, after, rfl, cut⟩ := ih shape endsMore
      exact ⟨c :: before, after, rfl, cut.lineChar⟩
  | case7 text ih =>
      rw [blankCommentsFrom] at blanked
      obtain ⟨more, rfl, endsMore, shape⟩ := ends.strip blankPair blanked
      obtain ⟨before, after, rfl, cut⟩ := ih shape endsMore
      exact ⟨'*' :: '/' :: before, after, rfl, cut.close⟩
  | case8 c text noEnd ih =>
      rw [blankCommentsFrom.eq_7 c text noEnd] at blanked
      obtain ⟨more, rfl, endsMore, shape⟩ := ends.strip (fun _ => isBlank_of_mem_blankChar) blanked
      obtain ⟨before, after, rfl, cut⟩ := ih shape endsMore
      exact ⟨c :: before, after, rfl, cut.blockChar noEnd⟩

end AutoImport
