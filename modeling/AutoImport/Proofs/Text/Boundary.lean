import AutoImport.Proofs.Text.Cursor

/-!
# Places between characters

A byte offset is a place between two characters of a text, or at one of its ends, exactly when the text
can be cut there.
-/

namespace AutoImport.Text

theorem splitAtByte?_eq_some_iff {offset : Nat} {text before after : List Char} :
    splitAtByte? offset text = some (before, after) ↔
      text = before ++ after ∧ offset = byteLength before := by
  constructor
  · intro cut
    induction text generalizing offset before with
    | nil =>
        cases offset with
        | zero => simp_all [splitAtByte?, byteLength]
        | succ offset => simp [splitAtByte?] at cut
    | cons c text ih =>
        cases offset with
        | zero => simp_all [splitAtByte?, byteLength]
        | succ offset =>
            rw [splitAtByte?] at cut
            split at cut
            · rename_i fits
              rcases Option.map_eq_some_iff.mp cut with ⟨⟨front, back⟩, rest, same⟩
              obtain ⟨rfl, rfl⟩ := Prod.mk.inj same
              rcases ih rest with ⟨rfl, length⟩
              refine ⟨rfl, ?_⟩
              rw [byteLength, ← length]
              omega
            · simp at cut
  · rintro ⟨rfl, rfl⟩
    exact splitAtByte?_append before after

/-- A byte offset is a place between two characters of a text, or at one of its ends. -/
def IsBoundary (text : List Char) (offset : Nat) : Prop :=
  ∃ before after, text = before ++ after ∧ offset = byteLength before

theorem isBoundary_iff_isSome {text : List Char} {offset : Nat} :
    IsBoundary text offset ↔ (splitAtByte? offset text).isSome = true := by
  rw [Option.isSome_iff_exists, Prod.exists]
  simp only [splitAtByte?_eq_some_iff]
  rfl

instance (text : List Char) (offset : Nat) : Decidable (IsBoundary text offset) :=
  decidable_of_iff _ isBoundary_iff_isSome.symm

theorem IsBoundary.le_byteLength {text : List Char} {offset : Nat} (boundary : IsBoundary text offset) :
    offset ≤ byteLength text := by
  rcases boundary with ⟨before, after, rfl, rfl⟩
  rw [byteLength_append]
  omega

/-- Two places cut a text into three parts. -/
theorem exists_parts_of_lt {text : List Char} {first second : Nat} (start : IsBoundary text first)
    (stop : IsBoundary text second) (lt : first < second) :
    ∃ before between after, text = before ++ (between ++ after) ∧ between ≠ [] ∧
      first = byteLength before ∧ second = byteLength (before ++ between) := by
  rcases start with ⟨before, rest, rfl, rfl⟩
  rcases stop with ⟨front, after, shape, rfl⟩
  rcases List.append_eq_append_iff.mp shape with ⟨between, rfl, rfl⟩ | ⟨between, rfl, rfl⟩
  · refine ⟨before, between, after, rfl, ?_, rfl, rfl⟩
    rintro rfl
    simp at lt
  · rw [byteLength_append] at lt
    omega

/-- The part of a text between two byte offsets. There is none when one of them lies inside a character
or past the end, or when they are the wrong way round. -/
def between? (start stop : Nat) (text : List Char) : Option (List Char) := do
  let (front, _) ← splitAtByte? stop text
  let (_, part) ← splitAtByte? start front
  some part

theorem between?_append (before part after : List Char) :
    between? (byteLength before) (byteLength before + byteLength part) (before ++ (part ++ after)) =
      some part := by
  have stop : splitAtByte? (byteLength before + byteLength part) (before ++ (part ++ after)) =
      some (before ++ part, after) := by
    rw [← byteLength_append, ← List.append_assoc]
    exact splitAtByte?_append _ _
  simp only [between?, stop, Option.bind_eq_bind, Option.bind_some, splitAtByte?_append]

/-- A part of a text stands at a byte offset. -/
def StandsAt (text : List Char) (offset : Nat) (part : List Char) : Prop :=
  ∃ front back, text = front ++ (part ++ back) ∧ offset = byteLength front

namespace StandsAt

variable {text part inner : List Char} {offset place : Nat}

theorem append (front part back : List Char) :
    StandsAt (front ++ (part ++ back)) (byteLength front) part :=
  ⟨front, back, rfl, rfl⟩

theorem within (outer : StandsAt text offset part) (stands : StandsAt part place inner) :
    StandsAt text (offset + place) inner := by
  rcases outer with ⟨front, back, rfl, rfl⟩
  rcases stands with ⟨before, after, rfl, rfl⟩
  exact ⟨front ++ before, after ++ back, by simp, (byteLength_append _ _).symm⟩

theorem between? (stands : StandsAt text offset part) :
    between? offset (offset + byteLength part) text = some part := by
  rcases stands with ⟨front, back, rfl, rfl⟩
  exact between?_append front part back

theorem isInfix (stands : StandsAt text offset part) : part <:+: text := by
  rcases stands with ⟨front, back, rfl, -⟩
  exact ⟨front, back, List.append_assoc _ _ _⟩

theorem add_le (stands : StandsAt text offset part) : offset + byteLength part ≤ byteLength text := by
  rcases stands with ⟨front, back, rfl, rfl⟩
  rw [byteLength_append, byteLength_append]
  omega

end StandsAt

end AutoImport.Text
