import AutoImport.Import.Declaration
import AutoImport.Proofs.Text.Character
import AutoImport.Proofs.Text.Cursor

/-!
# How the clauses of a declaration are read

The readers of the clauses of an import declaration are steady. So a change of the text between the
braces, or behind the default binding, leaves what is read before it as it was, and the text behind it
is read on in the same way.
-/

namespace AutoImport.ImportDeclaration

open Text

theorem expect?_singleton_eq_none_of_peek {c : Char} {cursor : Cursor}
    (apart : (cursor.peek? == some c) = false) : cursor.expect? [c] = none := by
  rw [Cursor.expect?_singleton_eq_none_iff]
  simpa [Cursor.peek?] using apart

theorem identifier?_eq_choose : identifier? = fun cursor =>
    if (cursor.peek?.map isIdentifierStart).getD false then
      (some (cursor.takeWhile isIdentifierPart)).map fun found => (String.ofList found.1, found.2)
    else none := by
  funext cursor
  rw [identifier?]
  cases cursor.peek? with
  | none => rfl
  | some c => by_cases starts : isIdentifierStart c <;> simp [starts]

/-- A text that is an identifier. -/
structure IsIdentifier (name : List Char) : Prop where
  starts : ∃ c ∈ name.head?, isIdentifierStart c = true
  parts : ∀ c ∈ name, isIdentifierPart c = true

theorem IsIdentifier.ne_nil {name : List Char} (identifier : IsIdentifier name) : name ≠ [] := by
  rintro rfl
  obtain ⟨c, member, -⟩ := identifier.starts
  simp at member

theorem identifier?_append {name rest : List Char} (identifier : IsIdentifier name)
    (stop : ∀ c ∈ rest.head?, isIdentifierPart c = false) (offset : Nat) :
    identifier? ⟨offset, name ++ rest⟩ =
      some (String.ofList name, ⟨offset + byteLength name, rest⟩) := by
  obtain ⟨c, head, starts⟩ := identifier.starts
  have peeked : (Cursor.mk offset (name ++ rest)).peek? = some c := by
    rw [Cursor.peek?, List.head?_append, head]
    rfl
  simp only [identifier?, peeked, starts, Cursor.takeWhile_append identifier.parts stop, reduceIte]

theorem identifier?_eq_some {cursor next : Cursor} {name : String}
    (found : identifier? cursor = some (name, next)) :
    IsIdentifier name.toList ∧ cursor.Passes name.toList next ∧
      ∀ c ∈ next.rest.head?, isIdentifierPart c = false := by
  simp only [identifier?_eq_choose] at found
  split at found
  · rename_i starts
    simp only [Option.map_some, Cursor.takeWhile_eq, Option.some.injEq, Prod.mk.injEq] at found
    obtain ⟨rfl, rfl⟩ := found
    simp only [String.toList_ofList]
    refine ⟨⟨?_, fun c member => mem_takeWhile_imp member⟩,
      Cursor.skipWhile_passes isIdentifierPart cursor, head?_dropWhile_stops isIdentifierPart _⟩
    cases rest : cursor.rest with
    | nil => simp [Cursor.peek?, rest] at starts
    | cons c rest' =>
        have startsHere : isIdentifierStart c = true := by simpa [Cursor.peek?, rest] using starts
        exact ⟨c, by simp [isIdentifierPart_of_isIdentifierStart startsHere], startsHere⟩
  · simp at found

theorem identifier?_eq_none {cursor : Cursor}
    (other : ∀ c ∈ cursor.rest.head?, isIdentifierStart c = false) : identifier? cursor = none := by
  rw [identifier?]
  cases peeked : cursor.peek? with
  | none => rfl
  | some c => simp [other c peeked]

/-! ## Clauses one by one -/

theorem defaultBinding?_of_other {cursor : Cursor}
    (other : ∀ c ∈ cursor.rest.head?, isIdentifierStart c = false) :
    defaultBinding? cursor = (none, cursor) := by
  rw [defaultBinding?, identifier?_eq_none other]

theorem namespaceBinding?_of_other {cursor : Cursor} (other : cursor.rest.head? ≠ some '*') :
    namespaceBinding? cursor = some (none, cursor) := by
  rw [namespaceBinding?, Cursor.expect?_singleton_eq_none_iff.mpr other]

theorem braces?_of_other {cursor : Cursor} (other : cursor.rest.head? ≠ some '{') :
    braces? cursor = some (none, cursor) := by
  rw [braces?, Cursor.expect?_singleton_eq_none_iff.mpr other]

/-- A default binding without a comma. -/
theorem defaultBinding?_append {name rest : List Char} (identifier : IsIdentifier name)
    (stop : ∀ c ∈ rest.head?, isIdentifierPart c = false)
    (noComma : (rest.dropWhile isBlank).head? ≠ some ',') (offset : Nat) :
    defaultBinding? ⟨offset, name ++ rest⟩ =
      (some ⟨String.ofList name, offset + byteLength name⟩,
        (Cursor.mk (offset + byteLength name) rest).skipWhile isBlank) := by
  have stays : ((Cursor.mk (offset + byteLength name) rest).skipWhile isBlank).skip [','] =
      (Cursor.mk (offset + byteLength name) rest).skipWhile isBlank :=
    Cursor.skip_singleton_of_ne noComma
  have once : ((Cursor.mk (offset + byteLength name) rest).skipWhile isBlank).skipWhile isBlank =
      (Cursor.mk (offset + byteLength name) rest).skipWhile isBlank :=
    Cursor.skipWhile_of_stop (head?_dropWhile_stops isBlank rest)
  simp only [defaultBinding?, identifier?_append identifier stop, stays, once]

/-- A default binding with a comma right behind it. -/
theorem defaultBinding?_append_comma {name : List Char} (identifier : IsIdentifier name)
    (rest : List Char) (offset : Nat) :
    defaultBinding? ⟨offset, name ++ ',' :: rest⟩ =
      (some ⟨String.ofList name, offset + byteLength name⟩,
        (Cursor.mk (offset + byteLength name + 1) rest).skipWhile isBlank) := by
  have stop : ∀ c ∈ (',' :: rest).head?, isIdentifierPart c = false := by
    rintro c ⟨⟩
    decide
  have stays : (Cursor.mk (offset + byteLength name) (',' :: rest)).skipWhile isBlank =
      ⟨offset + byteLength name, ',' :: rest⟩ :=
    Cursor.skipWhile_of_stop (by rintro c ⟨⟩; decide)
  have comma := Cursor.skip_append [','] rest (offset + byteLength name)
  simp only [List.singleton_append] at comma
  simp only [defaultBinding?, identifier?_append identifier stop, stays, comma]
  rfl

theorem defaultBinding?_eq_some {cursor next : Cursor} {binding : DefaultBinding}
    (found : defaultBinding? cursor = (some binding, next)) :
    ∃ name middle, IsIdentifier name ∧ cursor.Passes name middle ∧
      (∀ c ∈ middle.rest.head?, isIdentifierPart c = false) ∧
      binding = ⟨String.ofList name, middle.offset⟩ ∧
      next = ((middle.skipWhile isBlank).skip [',']).skipWhile isBlank := by
  rw [defaultBinding?] at found
  split at found
  · simp at found
  · rename_i name middle read
    obtain ⟨identifier, passes, stop⟩ := identifier?_eq_some read
    simp only [Prod.mk.injEq, Option.some.injEq] at found
    obtain ⟨rfl, rfl⟩ := found
    exact ⟨name.toList, middle, identifier, passes, stop, by simp, rfl⟩

/-- Braces with blanks behind them. -/
theorem braces?_append {content blanks rest : List Char} (inside : '}' ∉ content)
    (blank : ∀ c ∈ blanks, isBlank c = true) (stop : ∀ c ∈ rest.head?, isBlank c = false)
    (offset : Nat) :
    braces? ⟨offset, '{' :: content ++ '}' :: blanks ++ rest⟩ =
      some (some ⟨offset + 1, String.ofList content, bindings content⟩,
        ⟨offset + byteLength ('{' :: content ++ '}' :: blanks), rest⟩) := by
  have opens := Cursor.expect?_append ['{'] (content ++ '}' :: (blanks ++ rest)) offset
  have all : ∀ c ∈ content, (c != '}') = true := by
    intro c member
    rw [bne_iff_ne]
    rintro rfl
    exact inside member
  have ends : ∀ c ∈ ('}' :: (blanks ++ rest)).head?, (c != '}') = false := by
    rintro c ⟨⟩
    rfl
  have closes := Cursor.expect?_append ['}'] (blanks ++ rest)
    (offset + byteLength ['{'] + byteLength content)
  simp only [List.singleton_append] at opens closes
  simp only [List.cons_append, List.append_assoc, braces?, opens, Cursor.takeWhile_append all ends,
    closes, Cursor.skipWhile_append blank stop, Option.bind_eq_bind, Option.bind_some]
  simp [byteLength, byteLength_append, Nat.add_assoc]
  rfl

theorem braces?_eq_some {cursor next : Cursor} {list : BraceList}
    (found : braces? cursor = some (some list, next)) :
    ∃ content blanks, '}' ∉ content ∧ (∀ c ∈ blanks, isBlank c = true) ∧
      (∀ c ∈ next.rest.head?, isBlank c = false) ∧
      cursor.Passes ('{' :: content ++ '}' :: blanks) next ∧
      list = ⟨cursor.offset + 1, String.ofList content, bindings content⟩ := by
  rw [braces?] at found
  split at found
  · simp at found
  · rename_i inside opens
    obtain ⟨closed, closes, equal⟩ := Option.bind_eq_some_iff.mp found
    simp only [Option.some.injEq, Prod.mk.injEq] at equal
    obtain ⟨rfl, rfl⟩ := equal
    have enters := Cursor.expect?_eq_some_iff.mp opens
    have passes := (enters.trans (Cursor.skipWhile_passes (· != '}') inside)).trans
      ((Cursor.expect?_eq_some_iff.mp closes).trans (Cursor.skipWhile_passes isBlank closed))
    refine ⟨inside.rest.takeWhile (· != '}'), closed.rest.takeWhile isBlank, ?_,
      fun c member => mem_takeWhile_imp member, head?_dropWhile_stops isBlank closed.rest, ?_, ?_⟩
    · intro member
      simpa using mem_takeWhile_imp member
    · simpa using passes
    · rw [enters.offset]
      rfl

/-! ## Steady readers of clauses -/

theorem steady_identifier : Cursor.Steady id identifier? := by
  rw [identifier?_eq_choose]
  exact Cursor.Steady.choose (fun next => (next.map isIdentifierStart).getD false)
    ((Cursor.steady_takeWhile isIdentifierPart).map String.ofList String.ofList fun _ => rfl)
    Cursor.steady_none

theorem steady_wordAndBlanks (word : List Char) :
    Cursor.Steady id fun cursor => (wordAndBlanks? word cursor).map (((), ·)) := by
  have sequence : (fun cursor => (wordAndBlanks? word cursor).map (((), ·))) = fun cursor =>
      (Cursor.andThen (fun cursor => (cursor.expect? word).map (((), ·)))
        (fun cursor => if (cursor.peek?.map isBlank).getD false then
          some ((), cursor.skipWhile isBlank) else none) cursor).map fun found =>
            ((), found.2) := by
    funext cursor
    rw [wordAndBlanks?]
    cases found : cursor.expect? word with
    | none => simp [Cursor.andThen, found]
    | some next =>
        cases peeked : next.peek? with
        | none => simp [Cursor.andThen, found, peeked]
        | some c => by_cases blank : isBlank c <;> simp [Cursor.andThen, found, peeked, blank]
  rw [sequence]
  exact ((Cursor.steady_expect word).andThen
    (Cursor.Steady.choose (fun next => (next.map isBlank).getD false)
      (Cursor.steady_skipWhile isBlank) Cursor.steady_none)).map
    (fun _ => ()) (fun _ => ()) fun _ => rfl

theorem steady_defaultBinding :
    Cursor.Steady (Option.map DefaultBinding.name) fun cursor => some (defaultBinding? cursor) := by
  have chosen : (fun cursor => some (defaultBinding? cursor)) = fun cursor =>
      if (cursor.peek?.map isIdentifierStart).getD false then
        (Cursor.andThen identifier? (Cursor.andThen (fun cursor => some (cursor.offset, cursor))
          (Cursor.andThen (fun cursor => some ((), cursor.skipWhile isBlank))
            (Cursor.andThen (fun cursor => some ((), cursor.skip [',']))
              fun cursor => some ((), cursor.skipWhile isBlank)))) cursor).map fun found =>
                (some ⟨found.1.1, found.1.2.1⟩, found.2)
      else some (none, cursor) := by
    funext cursor
    by_cases starts : (cursor.peek?.map isIdentifierStart).getD false
    · simp [defaultBinding?, identifier?_eq_choose, starts, Cursor.andThen]
    · simp [defaultBinding?, identifier?_eq_choose, starts]
  rw [chosen]
  exact Cursor.Steady.choose (fun next => (next.map isIdentifierStart).getD false)
    (Cursor.Steady.map (steady_identifier.andThen (Cursor.steady_offset.andThen
      ((Cursor.steady_skipWhile isBlank).andThen ((Cursor.steady_skip ',').andThen
        (Cursor.steady_skipWhile isBlank))))) (fun found => some (DefaultBinding.mk found.1 found.2.1))
      (fun seen => some seen.1) fun _ => rfl) (Cursor.steady_some none)

theorem steady_namespaceBinding : Cursor.Steady id namespaceBinding? := by
  have chosen : namespaceBinding? = fun cursor =>
      if cursor.peek? == some '*' then
        (Cursor.andThen (fun cursor => (cursor.expect? ['*']).map (((), ·)))
          (Cursor.andThen (fun cursor => some ((), cursor.skipWhile isBlank))
            (Cursor.andThen (fun cursor => (wordAndBlanks? ['a', 's'] cursor).map (((), ·)))
              (Cursor.andThen identifier? fun cursor => some ((), cursor.skipWhile isBlank))))
          cursor).map fun found => (some found.1.2.2.2.1, found.2)
      else some (none, cursor) := by
    funext cursor
    rw [namespaceBinding?]
    by_cases star : cursor.peek? == some '*'
    · cases found : cursor.expect? ['*'] with
      | none =>
          exact absurd (by simpa [Cursor.peek?] using star)
            (Cursor.expect?_singleton_eq_none_iff.mp found)
      | some next =>
          cases word : wordAndBlanks? ['a', 's'] (next.skipWhile isBlank) with
          | none => simp [star, found, word, Cursor.andThen]
          | some afterWord =>
              cases name : identifier? afterWord <;> simp [star, found, word, name, Cursor.andThen]
    · simp [star, expect?_singleton_eq_none_of_peek (by simpa using star)]
  rw [chosen]
  exact Cursor.Steady.choose (fun next => next == some '*')
    (Cursor.Steady.map ((Cursor.steady_expect ['*']).andThen
      ((Cursor.steady_skipWhile isBlank).andThen ((steady_wordAndBlanks ['a', 's']).andThen
        (steady_identifier.andThen (Cursor.steady_skipWhile isBlank)))))
      (fun found => some found.2.2.2.1) (fun seen => some seen.2.2.2.1) fun _ => rfl)
    (Cursor.steady_some none)

/-- What is seen of braces, other than where they stand. -/
def seenBraces (braces : Option BraceList) : Option (String × List ImportBinding) :=
  braces.map fun list => (list.content, list.bindings)

theorem steady_braces : Cursor.Steady seenBraces braces? := by
  have chosen : braces? = fun cursor =>
      if cursor.peek? == some '{' then
        (Cursor.andThen (fun cursor => (cursor.expect? ['{']).map (((), ·)))
          (Cursor.andThen (fun cursor => some (cursor.offset, cursor))
            (Cursor.andThen (fun cursor => some (cursor.takeWhile (· != '}')))
              (Cursor.andThen (fun cursor => (cursor.expect? ['}']).map (((), ·)))
                fun cursor => some ((), cursor.skipWhile isBlank))))
          cursor).map fun found =>
            (some ⟨found.1.2.1, String.ofList found.1.2.2.1, bindings found.1.2.2.1⟩, found.2)
      else some (none, cursor) := by
    funext cursor
    rw [braces?]
    by_cases opens : cursor.peek? == some '{'
    · cases found : cursor.expect? ['{'] with
      | none =>
          exact absurd (by simpa [Cursor.peek?] using opens)
            (Cursor.expect?_singleton_eq_none_iff.mp found)
      | some inside =>
          cases closed : (inside.takeWhile (· != '}')).2.expect? ['}'] <;>
            simp [opens, found, closed, Cursor.andThen]
    · simp [opens, expect?_singleton_eq_none_of_peek (by simpa using opens)]
  rw [chosen]
  exact Cursor.Steady.choose (fun next => next == some '{')
    (Cursor.Steady.map ((Cursor.steady_expect ['{']).andThen (Cursor.steady_offset.andThen
      ((Cursor.steady_takeWhile (· != '}')).andThen ((Cursor.steady_expect ['}']).andThen
        (Cursor.steady_skipWhile isBlank)))))
      (fun found => some (BraceList.mk found.2.1 (String.ofList found.2.2.1) (bindings found.2.2.1)))
      (fun seen => some (String.ofList seen.2.2.1, bindings seen.2.2.1)) fun _ => rfl)
    (Cursor.steady_some none)

end AutoImport.ImportDeclaration
