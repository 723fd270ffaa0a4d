import AutoImport.Proofs.Import.Comment

/-!
# What blanking keeps

Blanking leaves a character of a text as it is or puts blanks in its place, one character after the other.
So a part of the blanked text without blanks is a part of the text itself.
-/

namespace AutoImport

open Text

/-- Each character of a text is kept or blanked. -/
inductive Blanks : (text blanked : List Char) → Prop where
  | nil : Blanks [] []
  | kept {text blanked : List Char} (c : Char) (rest : Blanks text blanked) :
      Blanks (c :: text) (c :: blanked)
  | blanked {text blanked : List Char} (c : Char) (rest : Blanks text blanked) :
      Blanks (c :: text) (blankChar c ++ blanked)

theorem blanks_blankCommentsFrom (state : CommentState) (text : List Char) :
    Blanks text (blankCommentsFrom state text) := by
  -- The two characters that begin or end a comment are blanked one by one.
  have pair {text blanked : List Char} (first second : Char) (one : blankChar first = [' '])
      (other : blankChar second = [' ']) (rest : Blanks text blanked) :
      Blanks (first :: second :: text) (' ' :: ' ' :: blanked) := by
    have both := Blanks.blanked first (Blanks.blanked second rest)
    rwa [one, other] at both
  induction state, text using blankCommentsFrom.induct with
  | case1 state =>
      rw [blankCommentsFrom]
      exact .nil
  | case2 text ih =>
      rw [blankCommentsFrom]
      exact pair '/' '/' (by decide) (by decide) ih
  | case3 text closed ih =>
      rw [blankCommentsFrom, if_pos closed]
      exact pair '/' '*' (by decide) (by decide) ih
  | case4 text unclosed ih =>
      rw [blankCommentsFrom, if_neg unclosed]
      exact .kept '/' (.kept '*' ih)
  | case5 c text noLine noBlock ih =>
      rw [blankCommentsFrom.eq_4 c text noLine noBlock]
      exact .kept c ih
  | case6 c text ih =>
      rw [blankCommentsFrom]
      exact .blanked c ih
  | case7 text ih =>
      rw [blankCommentsFrom]
      exact pair '*' '/' (by decide) (by decide) ih
  | case8 c text noEnd ih =>
      rw [blankCommentsFrom.eq_7 c text noEnd]
      exact .blanked c ih

theorem blankChar_ne_nil (c : Char) : blankChar c ≠ [] := by
  intro empty
  have length := byteLength_blankChar c
  have positive := c.utf8Size_pos
  rw [empty, byteLength] at length
  omega

/-- Ink behind blanks begins behind all of them. -/
theorem exists_behind_blanks {blanks rest before ink after : List Char}
    (blank : ∀ c ∈ blanks, isBlank c = true) (filled : ink ≠ [])
    (inked : ∀ c ∈ ink, isBlank c = false) (shape : blanks ++ rest = before ++ (ink ++ after)) :
    ∃ more, rest = more ++ (ink ++ after) := by
  rcases List.append_eq_append_iff.mp shape with ⟨more, -, behind⟩ | ⟨gap, within, behind⟩
  · exact ⟨more, behind⟩
  · cases gap with
    | nil => exact ⟨[], behind.symm⟩
    | cons d gap =>
        -- The ink would begin with a blank.
        obtain ⟨first, ink, rfl⟩ := List.exists_cons_of_ne_nil filled
        obtain ⟨rfl, -⟩ := List.cons.inj behind
        have blankFirst := blank first (by rw [within]; simp)
        simp [inked first List.mem_cons_self] at blankFirst

namespace Blanks

/-- What begins with ink is kept up to there. -/
theorem exists_rest {text ink back : List Char} (blanks : Blanks text (ink ++ back))
    (inked : ∀ c ∈ ink, isBlank c = false) : ∃ after, text = ink ++ after := by
  induction ink generalizing text with
  | nil => exact ⟨text, rfl⟩
  | cons c ink ih =>
      rcases List.forall_mem_cons.mp inked with ⟨here, later⟩
      generalize shape : c :: ink ++ back = blanked at blanks
      cases blanks with
      | nil => simp at shape
      | kept d rest =>
          obtain ⟨rfl, rfl⟩ := List.cons.inj shape
          obtain ⟨after, rfl⟩ := ih rest later
          exact ⟨after, rfl⟩
      | blanked d rest =>
          obtain ⟨first, more, blank⟩ := List.exists_cons_of_ne_nil (blankChar_ne_nil d)
          have isBlankFirst : isBlank first = true := isBlank_of_mem_blankChar (by rw [blank]; simp)
          rw [blank] at shape
          rw [(List.cons.inj shape).1, isBlankFirst] at here
          simp at here

theorem isInfix {text blanked ink : List Char} (blanks : Blanks text blanked) (inside : ink <:+: blanked)
    (inked : ∀ c ∈ ink, isBlank c = false) : ink <:+: text := by
  by_cases empty : ink = []
  · rw [empty]
    exact List.nil_infix
  obtain ⟨front, back, shape⟩ := inside
  rw [List.append_assoc] at shape
  induction blanks generalizing front with
  | nil => exact absurd (List.append_eq_nil_iff.mp (List.append_eq_nil_iff.mp shape).2).1 empty
  | @kept text blanked c rest ih =>
      cases front with
      | nil =>
          obtain ⟨after, kept⟩ := exists_rest (shape ▸ Blanks.kept c rest) inked
          rw [kept]
          exact (List.prefix_append ink after).isInfix
      | cons d front => exact (ih front (List.cons.inj shape).2).trans (List.suffix_cons c text).isInfix
  | @blanked text blanked c rest ih =>
      rcases exists_behind_blanks (fun _ => isBlank_of_mem_blankChar) empty inked shape.symm with
        ⟨more, behind⟩
      exact (ih more behind.symm).trans (List.suffix_cons c text).isInfix

end Blanks

end AutoImport
