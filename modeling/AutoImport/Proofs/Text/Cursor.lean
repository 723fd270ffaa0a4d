import AutoImport.Text.Cursor
import AutoImport.Text.Edit

/-!
# What a reader looks at

A reader moves a cursor forward over a part of a text. A reader is `Steady` when what it reads, and what
it makes of it, depends on the text behind that part only by its first character, and on the offset of
the cursor not at all. Steady readers compose, so that a text can be changed in one place and read on
as before around it.
-/

namespace AutoImport.Text

/-! ## Bytes and prefixes -/

theorem byteLength_append (left right : List Char) :
    byteLength (left ++ right) = byteLength left + byteLength right := by
  induction left with
  | nil => simp [byteLength]
  | cons c left ih => simp [byteLength, ih, Nat.add_assoc]

theorem length_le_byteLength (text : List Char) : text.length ≤ byteLength text := by
  induction text with
  | nil => simp [byteLength]
  | cons c text ih =>
      have := c.utf8Size_pos
      simp only [byteLength, List.length_cons]
      omega

/-- A text is cut where a part of it ends. -/
theorem splitAtByte?_append (before after : List Char) :
    splitAtByte? (byteLength before) (before ++ after) = some (before, after) := by
  induction before with
  | nil => simp [byteLength, splitAtByte?]
  | cons c before ih =>
      have := c.utf8Size_pos
      obtain ⟨size, positive⟩ : ∃ size, byteLength (c :: before) = size + 1 :=
        ⟨byteLength (c :: before) - 1, by simp only [byteLength]; omega⟩
      have rest : size + 1 - c.utf8Size = byteLength before := by
        simp only [byteLength] at positive
        omega
      have fits : c.utf8Size ≤ size + 1 := by
        simp only [byteLength] at positive
        omega
      rw [positive, List.cons_append, splitAtByte?, if_pos fits, rest, ih]
      rfl

/-- The edit between two parts of a text keeps both parts. -/
theorem TextEdit.applied?_append (before removed after : List Char) (newText : String) :
    TextEdit.applied? ⟨byteLength before, byteLength before + byteLength removed, newText⟩
      (before ++ removed ++ after) = some (before ++ newText.toList ++ after) := by
  have stop : splitAtByte? (byteLength before + byteLength removed) (before ++ removed ++ after) =
      some (before ++ removed, after) := by
    rw [← byteLength_append]
    exact splitAtByte?_append _ _
  have start : splitAtByte? (byteLength before) (before ++ removed ++ after) =
      some (before, removed ++ after) := by
    rw [List.append_assoc]
    exact splitAtByte?_append _ _
  simp only [TextEdit.applied?, start, stop]
  rfl

theorem TextEdit.applied?_insert (before after : List Char) (newText : String) :
    (TextEdit.insert (byteLength before) newText).applied? (before ++ after) =
      some (before ++ newText.toList ++ after) := by
  have applied := TextEdit.applied?_append before [] after newText
  simpa [TextEdit.insert, byteLength] using applied

/-- Whether an edit can be made does not depend on the text that it brings. -/
theorem TextEdit.applied?_isSome_congr {edit other : TextEdit} (start : edit.start = other.start)
    (stop : edit.stop = other.stop) (text : List Char) :
    (edit.applied? text).isSome = (other.applied? text).isSome := by
  rw [TextEdit.applied?, TextEdit.applied?, start, stop]
  cases splitAtByte? other.start text with
  | none => rfl
  | some front => cases splitAtByte? other.stop text <;> rfl

theorem dropPrefix?_eq_some_iff {start text rest : List Char} :
    dropPrefix? start text = some rest ↔ text = start ++ rest := by
  induction start generalizing text with
  | nil => simp [dropPrefix?, eq_comm]
  | cons c start ih =>
      cases text with
      | nil => simp [dropPrefix?]
      | cons d text =>
          by_cases same : c = d
          · simp [dropPrefix?, same, ih]
          · simp [dropPrefix?, same, Ne.symm same]

/-! ## Runs of characters -/

theorem takeWhile_append_of_stop {test : Char → Bool} {run rest : List Char}
    (all : ∀ c ∈ run, test c = true) (stop : ∀ c ∈ rest.head?, test c = false) :
    (run ++ rest).takeWhile test = run := by
  rw [List.takeWhile_append_of_pos all]
  cases rest with
  | nil => simp
  | cons c rest =>
      have fails : test c = false := stop c rfl
      simp [fails]

theorem dropWhile_append_of_stop {test : Char → Bool} {run rest : List Char}
    (all : ∀ c ∈ run, test c = true) (stop : ∀ c ∈ rest.head?, test c = false) :
    (run ++ rest).dropWhile test = rest := by
  rw [List.dropWhile_append_of_pos all]
  cases rest with
  | nil => rfl
  | cons c rest =>
      have fails : test c = false := stop c rfl
      simp [fails]

theorem mem_takeWhile_imp {test : Char → Bool} {text : List Char} {c : Char}
    (member : c ∈ text.takeWhile test) : test c = true := by
  induction text with
  | nil => simp at member
  | cons d text ih =>
      by_cases holds : test d
      · rw [List.takeWhile_cons_of_pos holds] at member
        rcases List.mem_cons.mp member with rfl | later
        · exact holds
        · exact ih later
      · rw [List.takeWhile_cons_of_neg holds] at member
        simp at member

theorem head?_dropWhile_stops (test : Char → Bool) (text : List Char) :
    ∀ c ∈ (text.dropWhile test).head?, test c = false := by
  intro c member
  have := List.head?_dropWhile_not test text
  rw [Option.mem_def] at member
  simpa [member] using this

namespace Cursor

/-- The cursor moves over `read` to `next`. -/
structure Passes (cursor : Cursor) (read : List Char) (next : Cursor) : Prop where
  rest : cursor.rest = read ++ next.rest
  offset : next.offset = cursor.offset + byteLength read

theorem Passes.refl (cursor : Cursor) : cursor.Passes [] cursor :=
  ⟨rfl, rfl⟩

theorem Passes.trans {first second third : Cursor} {read more : List Char}
    (start : first.Passes read second) (finish : second.Passes more third) :
    first.Passes (read ++ more) third :=
  ⟨by rw [start.rest, finish.rest, List.append_assoc],
    by rw [finish.offset, start.offset, byteLength_append, Nat.add_assoc]⟩

theorem skipWhile_eq (test : Char → Bool) (cursor : Cursor) :
    cursor.skipWhile test =
      ⟨cursor.offset + byteLength (cursor.rest.takeWhile test), cursor.rest.dropWhile test⟩ := by
  rfl

theorem takeWhile_eq (test : Char → Bool) (cursor : Cursor) :
    cursor.takeWhile test =
      (cursor.rest.takeWhile test,
        ⟨cursor.offset + byteLength (cursor.rest.takeWhile test), cursor.rest.dropWhile test⟩) := by
  rfl

theorem skipWhile_passes (test : Char → Bool) (cursor : Cursor) :
    cursor.Passes (cursor.rest.takeWhile test) (cursor.skipWhile test) :=
  ⟨(List.takeWhile_append_dropWhile ..).symm, rfl⟩

/-- A run that ends before the rest is what is skipped. -/
theorem skipWhile_append {test : Char → Bool} {run rest : List Char}
    (all : ∀ c ∈ run, test c = true) (stop : ∀ c ∈ rest.head?, test c = false) (offset : Nat) :
    (Cursor.mk offset (run ++ rest)).skipWhile test = ⟨offset + byteLength run, rest⟩ := by
  simp only [skipWhile_eq, takeWhile_append_of_stop all stop, dropWhile_append_of_stop all stop]

theorem skipWhile_of_stop {test : Char → Bool} {cursor : Cursor}
    (stop : ∀ c ∈ cursor.rest.head?, test c = false) : cursor.skipWhile test = cursor := by
  have nothing : (Cursor.mk cursor.offset ([] ++ cursor.rest)).skipWhile test =
      ⟨cursor.offset + byteLength [], cursor.rest⟩ := skipWhile_append (by simp) stop cursor.offset
  simpa [byteLength] using nothing

theorem takeWhile_append {test : Char → Bool} {run rest : List Char}
    (all : ∀ c ∈ run, test c = true) (stop : ∀ c ∈ rest.head?, test c = false) (offset : Nat) :
    (Cursor.mk offset (run ++ rest)).takeWhile test = (run, ⟨offset + byteLength run, rest⟩) := by
  simp only [takeWhile_eq, takeWhile_append_of_stop all stop, dropWhile_append_of_stop all stop]

theorem expect?_eq_some_iff {expected : List Char} {cursor next : Cursor} :
    cursor.expect? expected = some next ↔ cursor.Passes expected next := by
  constructor
  · intro found
    obtain ⟨rest, dropped, rfl⟩ := Option.map_eq_some_iff.mp found
    exact ⟨dropPrefix?_eq_some_iff.mp dropped, rfl⟩
  · rintro ⟨rest, offset⟩
    simp only [expect?, dropPrefix?_eq_some_iff.mpr rest, Option.map_some, after, ← offset]

theorem expect?_append (expected rest : List Char) (offset : Nat) :
    (Cursor.mk offset (expected ++ rest)).expect? expected =
      some ⟨offset + byteLength expected, rest⟩ :=
  expect?_eq_some_iff.mpr ⟨rfl, rfl⟩

/-- One expected character is the next one or is not there. -/
theorem expect?_singleton_eq_none_iff {c : Char} {cursor : Cursor} :
    cursor.expect? [c] = none ↔ cursor.rest.head? ≠ some c := by
  obtain ⟨offset, rest⟩ := cursor
  cases rest with
  | nil => simp [expect?, dropPrefix?]
  | cons d rest => by_cases same : c = d <;> simp [expect?, dropPrefix?, same, Ne.symm]

theorem skip_singleton_of_ne {c : Char} {cursor : Cursor} (apart : cursor.rest.head? ≠ some c) :
    cursor.skip [c] = cursor := by
  rw [skip, expect?_singleton_eq_none_iff.mpr apart]
  rfl

theorem skip_singleton_passes (c : Char) (cursor : Cursor) :
    cursor.Passes [] (cursor.skip [c]) ∨ cursor.Passes [c] (cursor.skip [c]) := by
  rw [skip]
  cases found : cursor.expect? [c] with
  | none => exact .inl (Passes.refl cursor)
  | some next => exact .inr (expect?_eq_some_iff.mp found)

theorem skip_offset_le (expected : List Char) (cursor : Cursor) :
    (cursor.skip expected).offset ≤ cursor.offset + byteLength expected := by
  rw [skip]
  cases found : cursor.expect? expected with
  | none => exact Nat.le_add_right ..
  | some next => exact Nat.le_of_eq (expect?_eq_some_iff.mp found).offset

theorem skip_append (expected rest : List Char) (offset : Nat) :
    (Cursor.mk offset (expected ++ rest)).skip expected =
      ⟨offset + byteLength expected, rest⟩ := by
  rw [skip, expect?_append]
  rfl

/-! ## Steady readers -/

/-- What a reader reads and what `view` sees of its value depend on the text behind by its first
character only, and not on the offset. -/
def Steady {α β : Type} (view : α → β) (reader : Cursor → Option (α × Cursor)) : Prop :=
  ∀ cursor value next, reader cursor = some (value, next) →
    ∃ read, cursor.Passes read next ∧
      ∀ offset rest, rest.head? = next.rest.head? →
        ∃ other, reader ⟨offset, read ++ rest⟩ = some (other, ⟨offset + byteLength read, rest⟩) ∧
          view other = view value

variable {α β γ δ : Type} {view : α → β} {nextView : γ → δ}

/-- One reader after the other. -/
def andThen (first : Cursor → Option (α × Cursor)) (second : Cursor → Option (γ × Cursor))
    (cursor : Cursor) : Option ((α × γ) × Cursor) := do
  let (value, cursor) ← first cursor
  let (more, cursor) ← second cursor
  some ((value, more), cursor)

theorem andThen_eq_some_iff {first : Cursor → Option (α × Cursor)}
    {second : Cursor → Option (γ × Cursor)} {cursor next : Cursor} {value : α × γ} :
    andThen first second cursor = some (value, next) ↔
      ∃ middle, first cursor = some (value.1, middle) ∧ second middle = some (value.2, next) := by
  obtain ⟨left, right⟩ := value
  constructor
  · intro found
    obtain ⟨⟨given, middle⟩, foundFirst, found⟩ := Option.bind_eq_some_iff.mp found
    obtain ⟨⟨more, stop⟩, foundSecond, equal⟩ := Option.bind_eq_some_iff.mp found
    simp only [Option.some.injEq, Prod.mk.injEq] at equal
    obtain ⟨⟨rfl, rfl⟩, rfl⟩ := equal
    exact ⟨middle, foundFirst, foundSecond⟩
  · rintro ⟨middle, foundFirst, foundSecond⟩
    simp [andThen, foundFirst, foundSecond]

theorem Steady.andThen {first : Cursor → Option (α × Cursor)}
    {second : Cursor → Option (γ × Cursor)} (steadyFirst : Steady view first)
    (steadySecond : Steady nextView second) :
    Steady (Prod.map view nextView) (andThen first second) := by
  intro cursor value next found
  obtain ⟨middle, foundFirst, foundSecond⟩ := andThen_eq_some_iff.mp found
  obtain ⟨read, passes, again⟩ := steadyFirst _ _ _ foundFirst
  obtain ⟨more, passesMore, againMore⟩ := steadySecond _ _ _ foundSecond
  refine ⟨read ++ more, passes.trans passesMore, fun offset rest sameHead => ?_⟩
  have sameMiddle : (more ++ rest).head? = middle.rest.head? := by
    rw [passesMore.rest, List.head?_append, List.head?_append, sameHead]
  obtain ⟨left, readLeft, viewLeft⟩ := again offset (more ++ rest) sameMiddle
  obtain ⟨right, readRight, viewRight⟩ := againMore (offset + byteLength read) rest sameHead
  refine ⟨(left, right), ?_, ?_⟩
  · rw [andThen_eq_some_iff, List.append_assoc, byteLength_append, ← Nat.add_assoc]
    exact ⟨_, readLeft, readRight⟩
  · exact Prod.ext viewLeft viewRight

theorem Steady.map {reader : Cursor → Option (α × Cursor)} (steady : Steady view reader)
    (change : α → γ) (changeView : β → δ) (agree : ∀ value, nextView (change value) =
      changeView (view value)) :
    Steady nextView fun cursor => (reader cursor).map fun found => (change found.1, found.2) := by
  intro cursor value next found
  obtain ⟨⟨given, stop⟩, foundGiven, equal⟩ := Option.map_eq_some_iff.mp found
  obtain ⟨rfl, rfl⟩ := Prod.mk.inj equal
  obtain ⟨read, passes, again⟩ := steady _ _ _ foundGiven
  refine ⟨read, passes, fun offset rest sameHead => ?_⟩
  obtain ⟨other, readOther, viewOther⟩ := again offset rest sameHead
  exact ⟨change other, by simp only [readOther, Option.map_some], by rw [agree, agree, viewOther]⟩

/-- A choice by the next character between two steady readers. -/
theorem Steady.choose (test : Option Char → Bool) {first second : Cursor → Option (α × Cursor)}
    (steadyFirst : Steady view first) (steadySecond : Steady view second) :
    Steady view fun cursor => if test cursor.peek? then first cursor else second cursor := by
  have keep {reader : Cursor → Option (α × Cursor)} (steady : Steady view reader) {cursor next : Cursor}
      {value : α} (found : reader cursor = some (value, next)) :
      ∃ read, cursor.Passes read next ∧ ∀ offset rest, rest.head? = next.rest.head? →
        (Cursor.mk offset (read ++ rest)).peek? = cursor.peek? ∧
        ∃ other, reader ⟨offset, read ++ rest⟩ = some (other, ⟨offset + byteLength read, rest⟩) ∧
          view other = view value := by
    obtain ⟨read, passes, again⟩ := steady _ _ _ found
    refine ⟨read, passes, fun offset rest sameHead => ⟨?_, again offset rest sameHead⟩⟩
    rw [peek?, peek?, passes.rest, List.head?_append, List.head?_append, sameHead]
  intro cursor value next found
  by_cases chosen : test cursor.peek? = true
  · obtain ⟨read, passes, again⟩ := keep steadyFirst (by simpa [chosen] using found)
    refine ⟨read, passes, fun offset rest sameHead => ?_⟩
    obtain ⟨samePeek, readAgain⟩ := again offset rest sameHead
    simpa [samePeek, chosen] using readAgain
  · obtain ⟨read, passes, again⟩ := keep steadySecond (by simpa [chosen] using found)
    refine ⟨read, passes, fun offset rest sameHead => ?_⟩
    obtain ⟨samePeek, readAgain⟩ := again offset rest sameHead
    simpa [samePeek, chosen] using readAgain

theorem steady_some (value : α) : Steady view fun cursor => some (value, cursor) := by
  intro cursor other next found
  obtain ⟨rfl, rfl⟩ := Prod.mk.inj (Option.some.inj found)
  exact ⟨[], Passes.refl cursor, fun offset rest _ => ⟨_, by simp [byteLength], rfl⟩⟩

theorem steady_none : Steady view fun _ : Cursor => (none : Option (α × Cursor)) := by
  intro cursor value next found
  simp at found

/-- The offset of the cursor as a value, of which nothing is seen. -/
theorem steady_offset :
    Steady (fun _ => ()) fun cursor : Cursor => some (cursor.offset, cursor) := by
  intro cursor value next found
  obtain ⟨rfl, rfl⟩ := Prod.mk.inj (Option.some.inj found)
  exact ⟨[], Passes.refl cursor, fun offset rest _ => ⟨offset, by simp [byteLength], rfl⟩⟩

theorem steady_takeWhile (test : Char → Bool) :
    Steady id fun cursor : Cursor => some (cursor.takeWhile test) := by
  intro cursor value next found
  simp only [takeWhile_eq] at found
  obtain ⟨rfl, rfl⟩ := Prod.mk.inj (Option.some.inj found)
  refine ⟨cursor.rest.takeWhile test, skipWhile_passes test cursor, fun offset rest sameHead => ?_⟩
  refine ⟨_, ?_, rfl⟩
  have stop : ∀ c ∈ rest.head?, test c = false := by
    rw [sameHead]
    exact head?_dropWhile_stops test cursor.rest
  simp only [takeWhile_append (fun c member => mem_takeWhile_imp member) stop]

theorem steady_skipWhile (test : Char → Bool) :
    Steady id fun cursor : Cursor => some ((), cursor.skipWhile test) :=
  (steady_takeWhile test).map (fun _ => ()) (fun _ => ()) fun _ => rfl

theorem steady_expect (expected : List Char) :
    Steady id fun cursor : Cursor => (cursor.expect? expected).map (((), ·)) := by
  intro cursor value next found
  obtain ⟨stop, foundStop, equal⟩ := Option.map_eq_some_iff.mp found
  obtain ⟨rfl, rfl⟩ := Prod.mk.inj equal
  refine ⟨expected, expect?_eq_some_iff.mp foundStop, fun offset rest _ => ⟨(), ?_, rfl⟩⟩
  simp only [expect?_append, Option.map_some]

theorem steady_skip (c : Char) : Steady id fun cursor : Cursor => some ((), cursor.skip [c]) := by
  have chosen : (fun cursor : Cursor => some ((), cursor.skip [c])) = fun cursor =>
      if (cursor.peek? == some c) then (cursor.expect? [c]).map (((), ·)) else some ((), cursor) := by
    funext cursor
    split
    · rename_i next
      rw [skip]
      cases found : cursor.expect? [c] with
      | none => exact absurd (by simpa [peek?] using next) (expect?_singleton_eq_none_iff.mp found)
      | some stop => rfl
    · rename_i other
      rw [skip_singleton_of_ne (by simpa [peek?] using other)]
  rw [chosen]
  exact Steady.choose (fun next => next == some c) (steady_expect [c]) (steady_some ())

end Cursor

end AutoImport.Text
