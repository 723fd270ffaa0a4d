import AutoImport.Proofs.Import.Insertion

/-!
# Import statements of any number of bindings

A statement that the library writes is read back as what it was written from. `scanImports_statement` says
so for every list of bindings, also of those that are named like the words of an import: `type`, `as` and
`from` are read as names wherever a name stands.
-/

namespace AutoImport

open Text ImportDeclaration

namespace ImportBinding

/-- A binding whose name and other name are identifiers. -/
structure IsNamed (binding : ImportBinding) : Prop where
  name : IsIdentifier binding.name.toList
  rename : ∀ rename ∈ binding.rename, IsIdentifier rename.toList

/-- The word between the two names of a binding, with its blanks. -/
def asWord : List Char :=
  [' ', 'a', 's', ' ']

theorem render_cases (binding : ImportBinding) :
    (binding.rename = none ∧ binding.render.toList = binding.name.toList) ∨
      ∃ rename, binding.rename = some rename ∧
        binding.render.toList = binding.name.toList ++ (asWord ++ rename.toList) := by
  cases has : binding.rename with
  | none => simp [render, has]
  | some rename => simp [render, has, asWord]

section

variable {binding : ImportBinding} (named : binding.IsNamed)
include named

/-- No mark that an import is written with stands in a binding. -/
theorem IsNamed.not_mem_render {mark : Char} (other : isIdentifierPart mark = false)
    (ink : mark ≠ ' ') : mark ∉ binding.render.toList := by
  have inName : mark ∉ binding.name.toList := named.name.not_mem other
  rcases binding.render_cases with ⟨-, shape⟩ | ⟨rename, has, shape⟩
  · rw [shape]
    exact inName
  · have inRename : mark ∉ rename.toList := (named.rename rename has).not_mem other
    have noLetter : mark ≠ 'a' ∧ mark ≠ 's' := by
      constructor <;> rintro rfl <;> exact absurd other (by decide)
    rw [shape]
    simp [asWord, inName, inRename, ink, noLetter]

theorem IsNamed.trim_render : trim binding.render.toList = binding.render.toList := by
  have inkOf {text : List Char} (identifier : IsIdentifier text) : ∀ c ∈ text, isBlank c = false :=
    fun c member => not_isBlank_of_isIdentifierPart (identifier.parts c member)
  rcases binding.render_cases with ⟨-, shape⟩ | ⟨rename, has, shape⟩
  · rw [shape]
    exact trim_of_no_blank (inkOf named.name)
  · have identifier := named.rename rename has
    rw [shape]
    apply trim_of_ends
    · intro c head
      rcases named.name.starts with ⟨d, first, -⟩
      rw [List.head?_append, Option.mem_def.mp first] at head
      obtain rfl : d = c := Option.some.inj head
      exact inkOf named.name d (List.mem_of_head? first)
    · intro c last
      rw [List.getLast?_append, List.getLast?_append, Option.or_assoc] at last
      rcases Option.or_eq_some_iff.mp last with inRename | ⟨unnamed, -⟩
      · exact inkOf identifier c (List.mem_of_getLast? inRename)
      · exact absurd (List.getLast?_eq_none_iff.mp unnamed) identifier.ne_nil

end

end ImportBinding

/-! ## Reading one binding -/

namespace ImportDeclaration

open ImportBinding

theorem plainBinding?_renamed {name rename : List Char} (identifier : IsIdentifier name)
    (other : IsIdentifier rename) (offset : Nat) :
    plainBinding? ⟨offset, name ++ (asWord ++ rename)⟩ =
      some ⟨String.ofList name, some (String.ofList rename)⟩ := by
  have stop : ∀ c ∈ (asWord ++ rename).head?, isIdentifierPart c = false := by
    rintro c ⟨⟩
    decide
  have read := identifier?_append identifier stop offset
  have skipped := @Cursor.skipWhile_append isBlank [' '] (['a', 's', ' '] ++ rename)
    (List.all_eq_true.mp rfl) (by rintro c ⟨⟩; decide) (offset + byteLength name)
  have noBlank : ∀ c ∈ rename.head?, isBlank c = false :=
    fun c head => not_isBlank_of_isIdentifierPart (other.parts c (List.mem_of_head? head))
  have word : wordAndBlanks? ['a', 's']
      ⟨offset + byteLength name + byteLength [' '], ['a', 's', ' '] ++ rename⟩ =
      some ⟨offset + byteLength name + byteLength [' '] + byteLength ['a', 's', ' '], rename⟩ :=
    wordAndBlanks?_eq_some_iff.mpr ⟨[' '], by simp, List.all_eq_true.mp rfl, ⟨rfl, rfl⟩, noBlank⟩
  have readOther := @identifier?_append rename [] other (by simp)
    (offset + byteLength name + byteLength [' '] + byteLength ['a', 's', ' '])
  rw [List.append_nil] at readOther
  have peeked : (Cursor.mk (offset + byteLength name) (asWord ++ rename)).peek? = some ' ' := rfl
  have blank : isBlank ' ' = true := by decide
  have text : asWord ++ rename = [' '] ++ (['a', 's', ' '] ++ rename) := rfl
  simp only [plainBinding?, read, Option.bind_eq_bind, Option.bind_some, peeked, blank]
  rw [text, skipped, word]
  simp [readOther]

/-- The word `type` is the name of a binding that goes on with `as`. -/
theorem marked_renamed_eq_none {name rename : List Char} (identifier : IsIdentifier name)
    (other : IsIdentifier rename) :
    (wordAndBlanks? ['t', 'y', 'p', 'e'] ⟨0, name ++ (asWord ++ rename)⟩).bind plainBinding? =
      none := by
  rw [Option.bind_eq_none_iff]
  intro next marked
  rcases wordAndBlanks?_eq_some_iff.mp marked with ⟨run, filled, blank, passes, stop⟩
  have shape : name ++ (asWord ++ rename) = ['t', 'y', 'p', 'e'] ++ (run ++ next.rest) :=
    passes.rest.trans (List.append_assoc ..)
  -- Both sides begin with the same identifier, so that the mark is the name.
  have rest : asWord ++ rename = run ++ next.rest := by
    have left : (name ++ (asWord ++ rename)).dropWhile isIdentifierPart = asWord ++ rename :=
      dropWhile_append_of_stop identifier.parts (by rintro c ⟨⟩; decide)
    have right : (['t', 'y', 'p', 'e'] ++ (run ++ next.rest)).dropWhile isIdentifierPart =
        run ++ next.rest :=
      dropWhile_append_of_stop isIdentifier_type.parts
        (stops_of_blanks blank fun empty => absurd empty filled)
    rw [← left, shape, right]
  have behind : next.rest = ['a', 's', ' '] ++ rename := by
    have left : ([' '] ++ (['a', 's', ' '] ++ rename)).dropWhile isBlank = ['a', 's', ' '] ++ rename :=
      dropWhile_append_of_stop (List.all_eq_true.mp rfl) (by rintro c ⟨⟩; decide)
    have right := dropWhile_append_of_stop blank stop
    rw [← left, ← right, ← rest]
    rfl
  have isAs : IsIdentifier ['a', 's'] := ⟨⟨'a', rfl, by decide⟩, List.all_eq_true.mp rfl⟩
  have read := @identifier?_append ['a', 's'] (' ' :: rename) isAs (by rintro c ⟨⟩; decide) next.offset
  have skipped := @Cursor.skipWhile_append isBlank [' '] rename (List.all_eq_true.mp rfl)
    (fun c head => not_isBlank_of_isIdentifierPart (other.parts c (List.mem_of_head? head)))
    (next.offset + byteLength ['a', 's'])
  have readAs : identifier? next =
      some ("as", ⟨next.offset + byteLength ['a', 's'], [' '] ++ rename⟩) := by
    rcases next with ⟨offset, text⟩
    simp only at behind read
    rw [behind]
    exact read
  have noWord : wordAndBlanks? ['a', 's']
      (Cursor.skipWhile isBlank ⟨next.offset + byteLength ['a', 's'], ' ' :: rename⟩) = none := by
    rw [show ' ' :: rename = [' '] ++ rename from rfl, skipped]
    exact wordAndBlanks?_identifier other _ _
  simp [plainBinding?, readAs, Cursor.peek?, noWord]

theorem binding?_render {binding : ImportBinding} (named : binding.IsNamed) :
    binding? binding.render.toList = some binding := by
  rcases binding with ⟨name, rename⟩
  rcases render_cases ⟨name, rename⟩ with ⟨rfl, shape⟩ | ⟨other, rfl, shape⟩
  · rw [shape, binding?_identifier named.name, String.ofList_toList]
  · have identifier := named.rename other rfl
    rw [shape, binding?, marked_renamed_eq_none named.name identifier,
      plainBinding?_renamed named.name identifier]
    simp

/-! ## Reading all bindings -/

theorem entryBindings_render {binding : ImportBinding} (named : binding.IsNamed)
    {lead blanks : List Char} (blankLead : ∀ c ∈ lead, isBlank c = true)
    (blank : ∀ c ∈ blanks, isBlank c = true) :
    entryBindings [lead ++ binding.render.toList ++ blanks] = [binding] := by
  have filled : binding.render.toList ≠ [] := by
    intro empty
    have read := binding?_render named
    rw [empty] at read
    simp [binding?, wordAndBlanks?, plainBinding?, identifier?, Cursor.peek?, Cursor.expect?,
      dropPrefix?] at read
  simp [entryBindings, trim_append_blank _ blank, trim_blank_append blankLead, named.trim_render,
    filled, binding?_render named]

/-- What stands between the braces of a statement that the library writes. -/
def listed (bindings : List ImportBinding) : List Char :=
  [' '] ++ [',', ' '].intercalate (bindings.map fun binding => binding.render.toList) ++ [' ']

theorem listed_cons_cons (binding next : ImportBinding) (bindings : List ImportBinding) :
    listed (binding :: next :: bindings) =
      [' '] ++ binding.render.toList ++ ',' :: listed (next :: bindings) := by
  simp [listed, List.intercalate_cons_cons]

theorem not_mem_listed {bindings : List ImportBinding} (named : ∀ binding ∈ bindings, binding.IsNamed)
    {mark : Char} (other : isIdentifierPart mark = false) (ink : mark ≠ ' ') (noComma : mark ≠ ',') :
    mark ∉ listed bindings := by
  induction bindings with
  | nil => simp [listed, ink]
  | cons binding bindings ih =>
      have here := (named binding List.mem_cons_self).not_mem_render other ink
      have later := ih fun next member => named next (List.mem_cons_of_mem _ member)
      cases bindings with
      | nil => simp [listed, here, ink]
      | cons next bindings =>
          rw [listed_cons_cons]
          simp [here, ink, noComma, later]

theorem entryBindings_listed {bindings : List ImportBinding} (filled : bindings ≠ [])
    (named : ∀ binding ∈ bindings, binding.IsNamed) :
    entryBindings (splitOn ',' (listed bindings)) = bindings := by
  have blank : ∀ c ∈ [' '], isBlank c = true := List.all_eq_true.mp rfl
  induction bindings with
  | nil => exact absurd rfl filled
  | cons binding bindings ih =>
      have namedHere := named binding List.mem_cons_self
      have noComma : ',' ∉ binding.render.toList := namedHere.not_mem_render (by decide) (by decide)
      cases bindings with
      | nil =>
          have one : listed [binding] = [' '] ++ binding.render.toList ++ [' '] := by simp [listed]
          rw [one, splitOn_of_not_mem (by simp [noComma]), entryBindings_render namedHere blank blank]
      | cons next bindings =>
          have later := ih (by simp) fun other member => named other (List.mem_cons_of_mem _ member)
          have first : entryBindings [[' '] ++ binding.render.toList ++ []] = [binding] :=
            entryBindings_render namedHere blank (by simp)
          rw [List.append_nil] at first
          rw [listed_cons_cons, splitOn_append_separator, splitOn_of_not_mem (by simp [noComma]),
            entryBindings_append, first, later]
          rfl

theorem bindings_listed {bindings : List ImportBinding} (filled : bindings ≠ [])
    (named : ∀ binding ∈ bindings, binding.IsNamed) :
    ImportDeclaration.bindings (listed bindings) = bindings := by
  have noSlash : '/' ∉ listed bindings :=
    not_mem_listed named (by decide) (by decide) (by decide)
  have plain := blankCommentsFrom_code_append noSlash []
  rw [List.append_nil] at plain
  rw [bindings_eq_entryBindings, blankComments, plain, blankCommentsFrom, List.append_nil,
    entryBindings_listed filled named]

end ImportDeclaration

/-! ## Reading a statement -/

namespace ImportStyle

/-- The scan of a statement that the library writes finds one declaration, which is the whole statement
and says what the statement was written from. -/
theorem scanImports_statement (style : ImportStyle) {bindings : List ImportBinding}
    (filled : bindings ≠ []) (named : ∀ binding ∈ bindings, binding.IsNamed) {specifier : String}
    (plain : ∀ c ∈ specifier.toList, isQuote c = false ∧ c ≠ '\n') :
    ∃ declaration, scanImports (style.statement bindings specifier).toList = [declaration] ∧
      declaration.span = ⟨0, byteLength (style.statement bindings specifier).toList⟩ ∧
      declaration.specifier = specifier ∧ declaration.named = bindings ∧
      declaration.defaultBinding = none ∧ declaration.namespaceBinding = none ∧
      declaration.typeOnly = false := by
  have plainHere : ∀ c ∈ specifier.toList, (!isQuote c && c != '\n') = true := by
    intro c member
    simp [plain c member]
  have noClose : '}' ∉ listed bindings := not_mem_listed named (by decide) (by decide) (by decide)
  have isStatement := @isStatement_bracedStatement _ _ _ [] style.quote.isQuote_char noClose plainHere
    (by simp)
  rw [List.append_nil, bindings_listed filled named, String.ofList_toList] at isStatement
  obtain ⟨chars, shape⟩ : ∃ chars, chars =
      bracedStatement style.quote.char (listed bindings) specifier.toList := ⟨_, rfl⟩
  obtain ⟨ending, ends⟩ : ∃ ending : List Char, ending = if style.semicolons then [';'] else [] :=
    ⟨_, rfl⟩
  have text : (style.statement bindings specifier).toList = chars ++ ending := by
    rw [toList_statement_braced, shape, ends]
    rfl
  have stops : StopsInline ending := by
    rw [ends]
    cases style.semicolons <;> rintro c ⟨⟩
    decide
  rw [← shape] at isStatement
  rcases isStatement.reads 0 ending stops with ⟨declaration, read, shaped⟩
  have led : Lead true [] := .line rfl (by simp)
  have scan := scanFrom_statement led (Cursor.Passes.refl ⟨0, chars ++ ending⟩) read
    ⟨⟨rfl, rfl⟩, stops, rfl⟩ isStatement
  have behind : ∀ offset, scanFrom 0 false offset ending = [] := by
    intro offset
    rw [ends]
    cases style.semicolons <;> rfl
  have whole : ((Cursor.mk (0 + byteLength chars) ending).skip [';']).offset =
      byteLength (chars ++ ending) := by
    rw [byteLength_append, ends, Nat.zero_add]
    cases style.semicolons <;> rfl
  have span := read?_span read
  rw [whole] at span
  rw [behind] at scan
  rcases ImportShape.mk.inj shaped with ⟨specifierEq, typeOnlyEq, defaultEq, namespaceEq, bindingsEq⟩
  rw [text]
  refine ⟨declaration, scan, span, specifierEq, ?_, ?_, namespaceEq, typeOnlyEq⟩
  · rw [ImportDeclaration.named, bindingsEq, Option.getD_some]
  · exact Option.map_eq_none_iff.mp defaultEq

/-- The words of an import are names of bindings like any other. -/
theorem scanImports_statement_words :
    ∃ declaration,
      scanImports (statement ⟨.single, false⟩
          [⟨"type", some "as"⟩, ⟨"as", none⟩, ⟨"from", some "type"⟩, ⟨"$x", none⟩] "./m").toList =
        [declaration] ∧
      declaration.span = ⟨0, byteLength (statement ⟨.single, false⟩
          [⟨"type", some "as"⟩, ⟨"as", none⟩, ⟨"from", some "type"⟩, ⟨"$x", none⟩] "./m").toList⟩ ∧
      declaration.specifier = "./m" ∧
      declaration.named = [⟨"type", some "as"⟩, ⟨"as", none⟩, ⟨"from", some "type"⟩, ⟨"$x", none⟩] ∧
      declaration.defaultBinding = none ∧ declaration.namespaceBinding = none ∧
      declaration.typeOnly = false := by
  have isType : IsIdentifier "type".toList := ⟨⟨'t', rfl, by decide⟩, List.all_eq_true.mp rfl⟩
  have isAs : IsIdentifier "as".toList := ⟨⟨'a', rfl, by decide⟩, List.all_eq_true.mp rfl⟩
  have isFrom : IsIdentifier "from".toList := ⟨⟨'f', rfl, by decide⟩, List.all_eq_true.mp rfl⟩
  have isName : IsIdentifier "$x".toList := ⟨⟨'$', rfl, by decide⟩, List.all_eq_true.mp rfl⟩
  refine scanImports_statement ⟨.single, false⟩ (by simp) ?_ (by simp [isQuote])
  simp only [List.mem_cons, List.not_mem_nil, or_false]
  rintro binding (rfl | rfl | rfl | rfl)
  · exact ⟨isType, by rintro rename ⟨⟩; exact isAs⟩
  · exact ⟨isAs, by rintro rename ⟨⟩⟩
  · exact ⟨isFrom, by rintro rename ⟨⟩; exact isType⟩
  · exact ⟨isName, by rintro rename ⟨⟩⟩

end ImportStyle

end AutoImport
