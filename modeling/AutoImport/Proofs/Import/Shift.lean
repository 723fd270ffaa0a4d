import AutoImport.Proofs.Text.Cursor
import AutoImport.Import.Declaration

/-!
# Declarations further on in a document

Reading does not depend on the offset at which it begins: behind more text the same declarations are
read, with all their offsets moved by the length of that text.
-/

namespace AutoImport

open Text

/-! ## Cursors -/

namespace Text.Cursor

/-- The same rest of a text, further on in a document. -/
def shift (distance : Nat) (cursor : Cursor) : Cursor :=
  ⟨cursor.offset + distance, cursor.rest⟩

variable (distance : Nat) (cursor : Cursor)

@[simp]
theorem shift_rest : (cursor.shift distance).rest = cursor.rest :=
  rfl

@[simp]
theorem shift_offset : (cursor.shift distance).offset = cursor.offset + distance :=
  rfl

@[simp]
theorem peek?_shift : (cursor.shift distance).peek? = cursor.peek? :=
  rfl

@[simp]
theorem after_shift (read rest : List Char) :
    (cursor.shift distance).after read rest = (cursor.after read rest).shift distance := by
  simp [after, shift, Nat.add_right_comm]

@[simp]
theorem takeWhile_shift (test : Char → Bool) :
    (cursor.shift distance).takeWhile test =
      ((cursor.takeWhile test).1, (cursor.takeWhile test).2.shift distance) := by
  simp [takeWhile, spanWhile]

@[simp]
theorem skipWhile_shift (test : Char → Bool) :
    (cursor.shift distance).skipWhile test = (cursor.skipWhile test).shift distance := by
  simp [skipWhile]

@[simp]
theorem expect?_shift (expected : List Char) :
    (cursor.shift distance).expect? expected = (cursor.expect? expected).map (shift distance) := by
  simp only [expect?, shift_rest, Option.map_map]
  congr 1
  funext rest
  exact after_shift distance cursor expected rest

@[simp]
theorem skip_shift (expected : List Char) :
    (cursor.shift distance).skip expected = (cursor.skip expected).shift distance := by
  rw [skip, expect?_shift, skip]
  cases cursor.expect? expected <;> rfl

end Text.Cursor

/-! ## Declarations -/

namespace ImportDeclaration

/-- A declaration further on in a document. -/
def shift (distance : Nat) (declaration : ImportDeclaration) : ImportDeclaration :=
  { declaration with
    span := ⟨declaration.span.start + distance, declaration.span.stop + distance⟩
    defaultBinding := declaration.defaultBinding.map fun binding =>
      { binding with stop := binding.stop + distance }
    braces := declaration.braces.map fun list => { list with start := list.start + distance } }

/-- A reader that reads the same further on in a document, with `change` for what it reads. -/
def Moves {α : Type} (distance : Nat) (change : α → α) (reader : Cursor → Option (α × Cursor)) : Prop :=
  ∀ cursor, reader (cursor.shift distance) = (reader cursor).map (Prod.map change (Cursor.shift distance))

variable {distance : Nat}

theorem moves_identifier? : Moves distance id identifier? := by
  intro cursor
  rw [identifier?, identifier?, Cursor.peek?_shift]
  cases cursor.peek? with
  | none => rfl
  | some c =>
      simp only [Cursor.takeWhile_shift]
      split <;> rfl

theorem wordAndBlanks?_shift (word : List Char) (cursor : Cursor) :
    wordAndBlanks? word (cursor.shift distance) =
      (wordAndBlanks? word cursor).map (Cursor.shift distance) := by
  simp only [wordAndBlanks?, Cursor.expect?_shift]
  cases cursor.expect? word with
  | none => rfl
  | some next =>
      simp only [Option.map_some, Option.bind_eq_bind, Option.bind_some, Cursor.peek?_shift]
      cases next.peek? with
      | none => rfl
      | some c =>
          simp only [Option.bind_some, Cursor.skipWhile_shift]
          split <;> rfl

theorem defaultBinding?_shift (cursor : Cursor) :
    defaultBinding? (cursor.shift distance) =
      ((defaultBinding? cursor).1.map fun binding => { binding with stop := binding.stop + distance },
        (defaultBinding? cursor).2.shift distance) := by
  rw [defaultBinding?, defaultBinding?, moves_identifier? cursor]
  cases identifier? cursor with
  | none => rfl
  | some found => simp

theorem moves_namespaceBinding? : Moves distance id namespaceBinding? := by
  intro cursor
  rw [namespaceBinding?, namespaceBinding?, Cursor.expect?_shift]
  cases cursor.expect? ['*'] with
  | none => rfl
  | some star =>
      simp only [Option.map_some, Cursor.skipWhile_shift, wordAndBlanks?_shift]
      cases wordAndBlanks? ['a', 's'] (star.skipWhile isBlank) with
      | none => rfl
      | some word =>
          simp only [Option.map_some, Option.bind_eq_bind, Option.bind_some, moves_identifier? word]
          cases identifier? word with
          | none => rfl
          | some found => simp

theorem moves_braces? :
    Moves distance (Option.map fun list => { list with start := list.start + distance }) braces? := by
  intro cursor
  rw [braces?, braces?, Cursor.expect?_shift]
  cases cursor.expect? ['\x7b'] with
  | none => rfl
  | some inside =>
      simp only [Option.map_some, Cursor.takeWhile_shift, Cursor.expect?_shift]
      cases ((inside.takeWhile (· != '\x7d')).2.expect? ['\x7d']) with
      | none => rfl
      | some closed => simp

theorem moves_specifier? : Moves distance id specifier? := by
  intro cursor
  simp only [specifier?, Cursor.peek?_shift]
  cases cursor.peek? with
  | none => rfl
  | some opening =>
      simp only [Option.bind_eq_bind, Option.bind_some, Cursor.expect?_shift]
      split
      · rfl
      · cases cursor.expect? [opening] with
        | none => rfl
        | some inside =>
            simp only [Option.map_some, Option.bind_some, Cursor.takeWhile_shift, Cursor.peek?_shift]
            cases (inside.takeWhile fun c => !isQuote c && c != '\n').2.peek? with
            | none => rfl
            | some closing =>
                simp only [Option.bind_some, Cursor.expect?_shift]
                split
                · cases (inside.takeWhile fun c => !isQuote c && c != '\n').2.expect? [closing] <;> rfl
                · rfl

theorem clauses?_shift (start : Nat) (typeOnly : Bool) (cursor : Cursor) :
    clauses? (start + distance) typeOnly (cursor.shift distance) =
      (clauses? start typeOnly cursor).map (Prod.map (shift distance) (Cursor.shift distance)) := by
  simp only [clauses?, defaultBinding?_shift]
  rw [moves_namespaceBinding?]
  cases namespaceBinding? (defaultBinding? cursor).2 with
  | none => rfl
  | some star =>
      simp only [Option.map_some, Option.bind_eq_bind, Option.bind_some, Prod.map_snd, Prod.map_fst]
      rw [moves_braces?]
      cases braces? star.2 with
      | none => rfl
      | some list =>
          simp only [Option.map_some, Option.bind_some, Prod.map_snd, Prod.map_fst,
            Cursor.expect?_shift]
          have fromWord : (((list.2.expect? ['f', 'r', 'o', 'm']).map (Cursor.shift distance)).map
              (·.skipWhile isBlank)).getD (list.2.shift distance) =
              (((list.2.expect? ['f', 'r', 'o', 'm']).map (·.skipWhile isBlank)).getD list.2).shift
                distance := by
            cases list.2.expect? ['f', 'r', 'o', 'm'] <;> simp
          rw [fromWord, moves_specifier?]
          cases specifier? (((list.2.expect? ['f', 'r', 'o', 'm']).map
              (·.skipWhile isBlank)).getD list.2) with
          | none => rfl
          | some named => simp [shift]

theorem read?_shift : Moves distance (shift distance) read? := by
  intro cursor
  simp only [read?, Cursor.expect?_shift]
  cases cursor.expect? ['i', 'm', 'p', 'o', 'r', 't'] with
  | none => rfl
  | some next =>
      simp only [Option.map_some, Option.bind_eq_bind, Option.bind_some, Cursor.peek?_shift,
        Cursor.skipWhile_shift, wordAndBlanks?_shift, Cursor.shift_offset]
      split
      · rfl
      · rw [clauses?_shift]
        cases wordAndBlanks? ['t', 'y', 'p', 'e'] (next.skipWhile isBlank) with
        | none => rfl
        | some head =>
            simp only [Option.map_some, Option.bind_some, clauses?_shift]
            cases clauses? cursor.offset true head <;> rfl

theorem readAnchored?_shift (lineStart : Bool) :
    Moves distance (shift distance) (readAnchored? lineStart) := by
  intro cursor
  have behind : ((cursor.expect? [';']).map (Cursor.shift distance)).bind
      (fun next => read? (next.skipWhile isInlineBlank)) =
      ((cursor.expect? [';']).bind fun next => read? (next.skipWhile isInlineBlank)).map
        (Prod.map (shift distance) (Cursor.shift distance)) := by
    cases cursor.expect? [';'] with
    | none => rfl
    | some next =>
        simp only [Option.map_some, Option.bind_some, Cursor.skipWhile_shift]
        exact read?_shift _
  simp only [readAnchored?, Cursor.skipWhile_shift, Cursor.expect?_shift, behind]
  cases lineStart with
  | false => rfl
  | true =>
      rw [if_pos rfl, if_pos rfl, read?_shift]
      cases read? (cursor.skipWhile isInlineBlank) <;> rfl

/-- The scan finds the same declarations further on in a document. -/
theorem scanFrom_shift (distance skip : Nat) (lineStart : Bool) (offset : Nat) (text : List Char) :
    scanFrom skip lineStart (offset + distance) text =
      (scanFrom skip lineStart offset text).map (shift distance) := by
  induction text generalizing skip lineStart offset with
  | nil => cases skip <;> rfl
  | cons c text ih =>
      cases skip with
      | succ skip =>
          rw [scanFrom, scanFrom, ← ih, Nat.add_right_comm]
      | zero =>
          have anchored : readAnchored? lineStart ⟨offset + distance, c :: text⟩ =
              (readAnchored? lineStart ⟨offset, c :: text⟩).map
                (Prod.map (shift distance) (Cursor.shift distance)) :=
            readAnchored?_shift lineStart ⟨offset, c :: text⟩
          rw [scanFrom, scanFrom, anchored]
          cases readAnchored? lineStart ⟨offset, c :: text⟩ with
          | none =>
              simp only [Option.map_none]
              rw [← ih, Nat.add_right_comm]
          | some found =>
              have sameRest : charactersUntil (c :: text) (found.2.shift distance) =
                  charactersUntil (c :: text) found.2 := rfl
              simp only [Option.map_some, Prod.map, List.map_cons, sameRest]
              rw [← ih, Nat.add_right_comm]

end ImportDeclaration

end AutoImport
