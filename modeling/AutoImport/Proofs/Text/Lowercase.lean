import AutoImport.Proofs.Text.Search
import AutoImport.Text.Lowercase

/-!
# Lower case of texts in pieces

The lower case of a character does not depend on the characters around it, unless it is a capital
sigma, which becomes a final one at the end of a word. So the lower case of a text is the beginning of
the lower case of any longer text, except when what is put behind it carries on a word that it ends with
a sigma. In that case it never is.
-/

namespace AutoImport.Text

/-! ## Words that go on -/

/-- What follows decides whether a cased character is met behind characters that are all passed over. -/
theorem meetsCased_append_of_ignorable {back : List Char}
    (ignored : ∀ c ∈ back, isCaseIgnorable c = true) (rest : List Char) :
    meetsCased (back ++ rest) = meetsCased rest := by
  rw [meetsCased, List.dropWhile_append_of_pos ignored, meetsCased]

/-- Behind a character that is not passed over nothing matters. -/
theorem meetsCased_append_of_stop {back : List Char} (stops : ∃ c ∈ back, isCaseIgnorable c = false)
    (rest : List Char) : meetsCased (back ++ rest) = meetsCased back := by
  have kept : (back.dropWhile isCaseIgnorable).isEmpty = false := by
    rcases stops with ⟨c, member, stop⟩
    rw [Bool.eq_false_iff, ne_eq, List.isEmpty_iff]
    intro empty
    rw [← List.takeWhile_append_dropWhile (p := isCaseIgnorable) (l := back), empty,
      List.append_nil] at member
    simp [mem_takeWhile_imp member] at stop
  rw [meetsCased, List.dropWhile_append, kept, if_neg Bool.false_ne_true, meetsCased]
  cases shape : back.dropWhile isCaseIgnorable with
  | nil => simp [shape] at kept
  | cons c back => rfl

theorem meetsCased_append_sigma (back rest : List Char) :
    meetsCased (back ++ 'Σ' :: rest) = meetsCased (back ++ ['Σ']) := by
  have stops : ∃ c ∈ back ++ ['Σ'], isCaseIgnorable c = false := ⟨'Σ', by simp, by decide +kernel⟩
  rw [← meetsCased_append_of_stop stops rest, List.append_assoc, List.singleton_append]

theorem meetsCased_nil : meetsCased [] = false := rfl

/-- A text ends a word with a sigma, up to characters that are passed over, and what follows carries
that word on. -/
def CarriesOnSigma (text more : List Char) : Prop :=
  ∃ front back, text = front ++ 'Σ' :: back ∧ meetsCased front.reverse = true ∧
    (∀ c ∈ back, isCaseIgnorable c = true) ∧ meetsCased more = true

/-! ## Pieces -/

/-- The lower case of the front of a text depends on the rest only where a sigma of it ends a word with
one rest and not with the other. -/
theorem exists_lowercaseAfter_append {before front one other : List Char}
    (same : ∀ start back, front = start ++ 'Σ' :: back → meetsCased (start.reverse ++ before) = true →
      meetsCased (back ++ one) = meetsCased (back ++ other)) :
    ∃ lowered, lowercaseAfter before (front ++ one) =
        lowered ++ lowercaseAfter (front.reverse ++ before) one ∧
      lowercaseAfter before (front ++ other) =
        lowered ++ lowercaseAfter (front.reverse ++ before) other := by
  induction front generalizing before with
  | nil => exact ⟨[], rfl, rfl⟩
  | cons c front ih =>
      have later : ∀ start back, front = start ++ 'Σ' :: back →
          meetsCased (start.reverse ++ c :: before) = true →
            meetsCased (back ++ one) = meetsCased (back ++ other) := by
        intro start back shape meets
        exact same (c :: start) back (by rw [shape, List.cons_append]) (by simpa using meets)
      rcases ih later with ⟨lowered, ofOne, ofOther⟩
      have ends : c = 'Σ' → meetsCased before = true →
          meetsCased (front ++ one) = meetsCased (front ++ other) := by
        intro sigma meets
        exact same [] front (by rw [sigma, List.nil_append]) meets
      rw [List.cons_append, List.cons_append, lowercaseAfter, lowercaseAfter, ofOne, ofOther]
      by_cases sigma : c = 'Σ'
      · refine ⟨(if meetsCased before && !meetsCased (front ++ one) then 'ς' else 'σ') :: lowered, ?_, ?_⟩
        · simp [sigma]
        · cases meets : meetsCased before with
          | false => simp [sigma]
          | true => simp [sigma, ends sigma meets]
      · exact ⟨lowercaseOf c ++ lowered, by simp [sigma], by simp [sigma]⟩

/-- Unless a word goes on behind its sigma, the pieces of a text are lowered one by one. -/
theorem lowercase_append {text more : List Char} (ends : ¬CarriesOnSigma text more) :
    lowercase (text ++ more) = lowercase text ++ lowercaseAfter text.reverse more := by
  have same : ∀ start back, text = start ++ 'Σ' :: back → meetsCased (start.reverse ++ []) = true →
      meetsCased (back ++ more) = meetsCased (back ++ []) := by
    intro start back shape meets
    by_cases stops : ∃ c ∈ back, isCaseIgnorable c = false
    · rw [meetsCased_append_of_stop stops, meetsCased_append_of_stop stops]
    · have ignored : ∀ c ∈ back, isCaseIgnorable c = true := by simpa using stops
      rw [meetsCased_append_of_ignorable ignored, meetsCased_append_of_ignorable ignored,
        meetsCased_nil, Bool.eq_false_iff]
      intro carried
      exact ends ⟨start, back, shape, by simpa using meets, ignored, carried⟩
  rcases exists_lowercaseAfter_append same with ⟨lowered, whole, alone⟩
  rw [List.append_nil, List.append_nil, lowercaseAfter, List.append_nil] at alone
  rw [List.append_nil] at whole
  rw [lowercase, lowercase, whole, alone]

/-- If a word goes on behind its sigma, the lower case of the text differs from that of the longer text
at the sigma. -/
theorem exists_lowercase_of_carriesOnSigma {text more : List Char} (carries : CarriesOnSigma text more) :
    ∃ lowered final medial, lowercase text = lowered ++ 'ς' :: final ∧
      lowercase (text ++ more) = lowered ++ 'σ' :: medial := by
  rcases carries with ⟨front, back, rfl, meets, ignored, carried⟩
  -- A sigma in front of the one that decides meets that one at the latest, whatever follows.
  have same : ∀ start rest, front = start ++ 'Σ' :: rest → meetsCased (start.reverse ++ []) = true →
      meetsCased (rest ++ 'Σ' :: back) = meetsCased (rest ++ 'Σ' :: (back ++ more)) := by
    intro start rest _ _
    rw [meetsCased_append_sigma, meetsCased_append_sigma rest (back ++ more)]
  rcases exists_lowercaseAfter_append same with ⟨lowered, alone, whole⟩
  have ends : meetsCased back = false := by
    rw [← List.append_nil back, meetsCased_append_of_ignorable ignored, meetsCased_nil]
  have goesOn : meetsCased (back ++ more) = true := by
    rw [meetsCased_append_of_ignorable ignored, carried]
  refine ⟨lowered, lowercaseAfter ('Σ' :: front.reverse) back,
    lowercaseAfter ('Σ' :: front.reverse) (back ++ more), ?_, ?_⟩
  · rw [lowercase, alone, lowercaseAfter]
    simp [meets, ends]
  · rw [lowercase, List.append_assoc, List.cons_append, whole, lowercaseAfter]
    simp [meets, goesOn]

/-- The lower case of a text is the beginning of that of a longer text unless a word goes on behind its
sigma. -/
theorem startsWith_lowercase_append_iff {text more : List Char} :
    startsWith (lowercase text) (lowercase (text ++ more)) = true ↔ ¬CarriesOnSigma text more := by
  rw [startsWith_iff]
  constructor
  · rintro ⟨rest, shape⟩ carries
    rcases exists_lowercase_of_carriesOnSigma carries with ⟨lowered, final, medial, alone, whole⟩
    rw [alone, whole, List.append_assoc, List.append_cancel_left_eq, List.cons_append,
      List.cons.injEq] at shape
    exact absurd shape.1 (by decide)
  · intro ends
    exact ⟨_, lowercase_append ends⟩

end AutoImport.Text
