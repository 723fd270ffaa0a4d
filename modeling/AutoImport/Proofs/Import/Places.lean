import AutoImport.Proofs.Import.Applicable
import AutoImport.Proofs.Import.Blanking

/-!
# Where declarations stand

The declarations of a document are parts of it that do not overlap. What a declaration says stands in its
part of the document: the word `import` first, then the names that it introduces and the specifier, and
its braces around the list between them. The search that finds them one after the other comes to an end.
-/

namespace AutoImport

open Text

namespace ImportDeclaration

/-! ## What stands in a declaration -/

/-- The local name of a binding stands between the braces that it is read from. -/
theorem localName_isInfix_of_plainBinding? {cursor : Cursor} {binding : ImportBinding}
    (found : plainBinding? cursor = some binding) :
    IsIdentifier binding.localName.toList ∧ binding.localName.toList <:+: cursor.rest := by
  rcases Option.bind_eq_some_iff.mp found with ⟨⟨name, next⟩, read, found⟩
  rcases identifier?_eq_some read with ⟨identifier, passes, -⟩
  simp only at found
  split at found
  · obtain rfl := Option.some.inj found
    refine ⟨identifier, ?_⟩
    rw [passes.rest]
    exact (List.prefix_append _ _).isInfix
  · rcases Option.bind_eq_some_iff.mp found with ⟨c, -, found⟩
    split at found
    · simp at found
    · rcases Option.bind_eq_some_iff.mp found with ⟨word, readWord, found⟩
      rcases Option.bind_eq_some_iff.mp found with ⟨⟨rename, last⟩, readRename, found⟩
      rcases wordAndBlanks?_eq_some_iff.mp readWord with ⟨run, -, -, passesWord, -⟩
      rcases identifier?_eq_some readRename with ⟨renamed, passesRename, -⟩
      simp only at found
      split at found
      · obtain rfl := Option.some.inj found
        have all := ((passes.trans (Cursor.skipWhile_passes isBlank next)).trans passesWord).rest
        refine ⟨renamed, ?_⟩
        rw [all, passesRename.rest]
        exact ⟨_, last.rest, List.append_assoc _ _ _⟩
      · simp at found

theorem localName_isInfix_of_binding? {entry : List Char} {binding : ImportBinding}
    (found : binding? entry = some binding) :
    IsIdentifier binding.localName.toList ∧ binding.localName.toList <:+: entry := by
  rcases Option.or_eq_some_iff.mp found with typed | ⟨-, plain⟩
  · rcases Option.bind_eq_some_iff.mp typed with ⟨word, readWord, read⟩
    rcases wordAndBlanks?_eq_some_iff.mp readWord with ⟨run, -, -, passes, -⟩
    rcases localName_isInfix_of_plainBinding? read with ⟨identifier, inside⟩
    have behind : word.rest <:+ entry := ⟨_, passes.rest.symm⟩
    exact ⟨identifier, inside.trans behind.isInfix⟩
  · exact localName_isInfix_of_plainBinding? plain

/-- No name is made by the blanking of comments. -/
theorem localName_isInfix {content : List Char} {binding : ImportBinding}
    (member : binding ∈ bindings content) : binding.localName.toList <:+: content := by
  rcases List.mem_filterMap.mp member with ⟨entry, inside, found⟩
  rcases List.mem_map.mp (List.mem_filter.mp inside).1 with ⟨piece, ofSplit, rfl⟩
  rcases localName_isInfix_of_binding? found with ⟨identifier, inEntry⟩
  have inBlanked : binding.localName.toList <:+: blankComments content :=
    (inEntry.trans (trim_isInfix piece)).trans (isInfix_of_mem_splitOn ofSplit)
  exact (blanks_blankCommentsFrom .code content).isInfix inBlanked fun c part =>
    not_isBlank_of_isIdentifierPart (identifier.parts c part)

/-- What a declaration says stands in a text that begins at the given byte offset. -/
structure StandsIn (start : Nat) (text : List Char) (declaration : ImportDeclaration) : Prop where
  defaultName : ∀ binding ∈ declaration.defaultBinding, ∃ place,
    StandsAt text place binding.name.toList ∧
      binding.stop = start + (place + byteLength binding.name.toList)
  namespaceName : ∀ name ∈ declaration.namespaceBinding, name.toList <:+: text
  braces : ∀ list ∈ declaration.braces, ∃ place,
    StandsAt text place ('{' :: (list.content.toList ++ ['}'])) ∧ list.start = start + (place + 1) ∧
      '}' ∉ list.content.toList ∧ list.bindings = bindings list.content.toList
  specifier : declaration.specifier.toList <:+: text

theorem StandsIn.append {start : Nat} {front text : List Char} {declaration : ImportDeclaration}
    (stands : StandsIn (start + byteLength front) text declaration) :
    StandsIn start (front ++ text) declaration where
  defaultName := by
    intro binding has
    rcases stands.defaultName binding has with ⟨place, stands, stop⟩
    refine ⟨byteLength front + place, ?_, by omega⟩
    simpa using (StandsAt.append front text []).within stands
  namespaceName name has := (stands.namespaceName name has).trans (List.suffix_append front text).isInfix
  braces := by
    intro list has
    rcases stands.braces list has with ⟨place, stands, starts, rest⟩
    refine ⟨byteLength front + place, ?_, by omega, rest⟩
    simpa using (StandsAt.append front text []).within stands
  specifier := stands.specifier.trans (List.suffix_append front text).isInfix

theorem defaultBinding?_passes {cursor next : Cursor} {found : Option DefaultBinding}
    (read : defaultBinding? cursor = (found, next)) :
    ∃ run, cursor.Passes run next ∧ ∀ binding ∈ found, ∃ more, run = binding.name.toList ++ more ∧
      binding.stop = cursor.offset + byteLength binding.name.toList := by
  cases found with
  | none =>
      rw [defaultBinding?] at read
      split at read
      · obtain rfl := (Prod.mk.inj read).2
        exact ⟨[], Cursor.Passes.refl cursor, by simp⟩
      · simp at read
  | some binding =>
      rcases defaultBinding?_eq_some read with ⟨name, middle, -, passes, -, rfl, rfl⟩
      have blanks := Cursor.skipWhile_passes isBlank middle
      have behind := Cursor.skipWhile_passes isBlank ((middle.skipWhile isBlank).skip [','])
      have named : ∀ other ∈ some (DefaultBinding.mk (String.ofList name) middle.offset),
          other.name.toList = name ∧ other.stop = cursor.offset + byteLength name := by
        rintro other ⟨⟩
        exact ⟨String.toList_ofList, passes.offset⟩
      rcases Cursor.skip_singleton_passes ',' (middle.skipWhile isBlank) with comma | comma
      all_goals
        refine ⟨_, passes.trans ((blanks.trans comma).trans behind), fun other has => ?_⟩
        rw [(named other has).1]
        exact ⟨_, rfl, (named other has).2⟩

theorem namespaceBinding?_passes {cursor next : Cursor} {found : Option String}
    (read : namespaceBinding? cursor = some (found, next)) :
    ∃ run, cursor.Passes run next ∧ ∀ name ∈ found, name.toList <:+: run := by
  cases found with
  | none =>
      obtain rfl := namespaceBinding?_eq_none read
      exact ⟨[], Cursor.Passes.refl next, by simp⟩
  | some name =>
      rw [namespaceBinding?] at read
      split at read
      · simp at read
      · rename_i star opens
        rcases Option.bind_eq_some_iff.mp read with ⟨word, readWord, read⟩
        rcases Option.bind_eq_some_iff.mp read with ⟨⟨other, after⟩, readName, equal⟩
        simp only [Option.some.injEq, Prod.mk.injEq] at equal
        obtain ⟨rfl, rfl⟩ := equal
        rcases wordAndBlanks?_eq_some_iff.mp readWord with ⟨run, -, -, passesWord, -⟩
        have front := ((Cursor.expect?_eq_some_iff.mp opens).trans
          (Cursor.skipWhile_passes isBlank star)).trans passesWord
        have passes := (front.trans (identifier?_eq_some readName).2.1).trans
          (Cursor.skipWhile_passes isBlank after)
        refine ⟨_, passes, ?_⟩
        rintro name ⟨⟩
        exact ⟨_, _, rfl⟩

theorem braces?_passes {cursor next : Cursor} {found : Option BraceList}
    (read : braces? cursor = some (found, next)) :
    ∃ run, cursor.Passes run next ∧ ∀ list ∈ found, ∃ more,
      run = '{' :: (list.content.toList ++ ['}']) ++ more ∧ list.start = cursor.offset + 1 ∧
        '}' ∉ list.content.toList ∧ list.bindings = bindings list.content.toList := by
  cases found with
  | none =>
      obtain rfl := braces?_eq_none read
      exact ⟨[], Cursor.Passes.refl next, by simp⟩
  | some list =>
      rcases braces?_eq_some read with ⟨content, blanks, closed, -, -, passes, rfl⟩
      refine ⟨_, passes, ?_⟩
      rintro list ⟨⟩
      rw [String.toList_ofList]
      exact ⟨blanks, by simp, rfl, closed, rfl⟩

theorem source?_passes {cursor next : Cursor} {specifier : String}
    (read : source? cursor = some (specifier, next)) :
    ∃ run, cursor.Passes run next ∧ specifier.toList <:+: run ∧ 2 ≤ run.length := by
  rcases source?_eq_some read with ⟨source, middle, rfl, passes, -, rfl⟩
  have inside : source.specifier <:+: source.chars :=
    ⟨source.lead ++ [source.opening], source.closing :: source.blanks, by simp [SourceText.chars]⟩
  have quotes : 2 ≤ source.chars.length := by
    simp only [SourceText.chars, List.length_append, List.length_cons]
    omega
  rw [String.toList_ofList]
  rcases Cursor.skip_singleton_passes ';' middle with semicolon | semicolon
  all_goals
    refine ⟨_, passes.trans semicolon, inside.trans (List.prefix_append _ _).isInfix, ?_⟩
    rw [List.length_append]
    exact Nat.le_trans quotes (Nat.le_add_right _ _)

theorem clauses?_passes {start : Nat} {typeOnly : Bool} {cursor next : Cursor}
    {declaration : ImportDeclaration}
    (found : clauses? start typeOnly cursor = some (declaration, next)) :
    ∃ run, cursor.Passes run next ∧ StandsIn cursor.offset run declaration ∧ 2 ≤ run.length := by
  rcases clauses?_eq_some_iff.mp found with
    ⟨afterDefault, afterNamespace, afterBraces, readDefault, readNamespace, readBraces, readSource, -, -⟩
  rcases defaultBinding?_passes readDefault with ⟨first, passesDefault, defaultName⟩
  rcases namespaceBinding?_passes readNamespace with ⟨second, passesNamespace, namespaceName⟩
  rcases braces?_passes readBraces with ⟨third, passesBraces, braces⟩
  rcases source?_passes readSource with ⟨last, passesSource, specifier, quotes⟩
  have passes := passesDefault.trans (passesNamespace.trans (passesBraces.trans passesSource))
  refine ⟨_, passes, ⟨?_, ?_, ?_, ?_⟩, ?_⟩
  · intro binding has
    rcases defaultName binding has with ⟨more, rfl, stop⟩
    refine ⟨0, ?_, by omega⟩
    simpa [byteLength] using StandsAt.append [] binding.name.toList (more ++ (second ++ (third ++ last)))
  · intro name has
    rcases namespaceName name has with ⟨front, back, rfl⟩
    exact ⟨first ++ front, back ++ (third ++ last), by simp⟩
  · intro list has
    rcases braces list has with ⟨more, rfl, starts, rest⟩
    refine ⟨byteLength (first ++ second), ?_, ?_, rest⟩
    · simpa using StandsAt.append (first ++ second) ('{' :: (list.content.toList ++ ['}']))
        (more ++ last)
    · rw [starts, passesNamespace.offset, passesDefault.offset, byteLength_append]
      omega
  · rcases specifier with ⟨front, back, rfl⟩
    exact ⟨first ++ (second ++ (third ++ front)), back, by simp⟩
  · simp only [List.length_append]
    omega

theorem read?_passes {cursor next : Cursor} {declaration : ImportDeclaration}
    (found : read? cursor = some (declaration, next)) :
    ∃ run, cursor.Passes (importWord ++ run) next ∧
      StandsIn cursor.offset (importWord ++ run) declaration ∧ 2 ≤ run.length := by
  rcases read?_eq_some found with ⟨gap, head, passes, -, -, -, ⟨marked, word, clauses⟩ | ⟨-, clauses⟩⟩
  · rcases wordAndBlanks?_eq_some_iff.mp word with ⟨mark, -, -, passesMark, -⟩
    rcases clauses?_passes clauses with ⟨run, passesRun, stands, quotes⟩
    have front := passes.trans passesMark
    rw [front.offset] at stands
    have shape : importWord ++ (gap ++ (['t', 'y', 'p', 'e'] ++ mark) ++ run) =
        importWord ++ gap ++ (['t', 'y', 'p', 'e'] ++ mark) ++ run := by simp
    refine ⟨gap ++ (['t', 'y', 'p', 'e'] ++ mark) ++ run, ?_, ?_, ?_⟩
    · rw [shape]
      exact front.trans passesRun
    · rw [shape]
      exact stands.append
    · rw [List.length_append]
      exact Nat.le_trans quotes (Nat.le_add_left _ _)
  · rcases clauses?_passes clauses with ⟨run, passesRun, stands, quotes⟩
    rw [passes.offset] at stands
    refine ⟨gap ++ run, ?_, ?_, ?_⟩
    · rw [← List.append_assoc]
      exact passes.trans passesRun
    · rw [← List.append_assoc]
      exact stands.append
    · rw [List.length_append]
      exact Nat.le_trans quotes (Nat.le_add_left _ _)

/-- Every name that a declaration introduces stands where it does. -/
theorem StandsIn.localNames {start : Nat} {text : List Char} {declaration : ImportDeclaration}
    (stands : StandsIn start text declaration) :
    ∀ name ∈ declaration.localNames, name.toList <:+: text := by
  intro name member
  rw [ImportDeclaration.localNames, List.mem_append, List.mem_append] at member
  rcases member with (default | namespaced) | named
  · rcases Option.map_eq_some_iff.mp (Option.mem_toList.mp default) with ⟨binding, has, rfl⟩
    rcases stands.defaultName binding has with ⟨place, found, -⟩
    exact found.isInfix
  · exact stands.namespaceName name (Option.mem_toList.mp namespaced)
  · rcases List.mem_map.mp named with ⟨binding, inside, rfl⟩
    cases has : declaration.braces with
    | none => simp [ImportDeclaration.named, has] at inside
    | some list =>
        rcases stands.braces list has with ⟨place, found, -, -, content⟩
        have listed : binding ∈ bindings list.content.toList := by
          rw [← content]
          simpa [ImportDeclaration.named, has] using inside
        have between : list.content.toList <:+: '{' :: (list.content.toList ++ ['}']) :=
          ⟨['{'], ['}'], rfl⟩
        exact ((localName_isInfix listed).trans between).trans found.isInfix

/-! ## The place of a declaration -/

/-- A declaration is a part of its document that begins with the word `import` and holds what it says. -/
structure IsWellPlaced (text : List Char) (declaration : ImportDeclaration) : Prop where
  statement : ∃ statement,
    between? declaration.span.start declaration.span.stop text = some statement ∧
      importWord <+: statement ∧ declaration.specifier.toList <:+: statement ∧
      ∀ name ∈ declaration.localNames, name.toList <:+: statement
  /-- The word `import` and the two quotation marks are there. -/
  filled : declaration.span.start + 8 ≤ declaration.span.stop
  defaultName : ∀ binding ∈ declaration.defaultBinding,
    declaration.span.start ≤ binding.stop ∧ binding.stop ≤ declaration.span.stop ∧
      between? (binding.stop - byteLength binding.name.toList) binding.stop text =
        some binding.name.toList
  /-- The range between the braces has a brace on either side, and both are in the declaration. -/
  braces : ∀ list ∈ declaration.braces,
    declaration.span.start < list.span.start ∧ list.span.stop < declaration.span.stop ∧
      between? (list.span.start - 1) (list.span.stop + 1) text =
        some ('{' :: (list.content.toList ++ ['}'])) ∧
      between? list.span.start list.span.stop text = some list.content.toList ∧
      '}' ∉ list.content.toList

/-- A list in braces stands with its content behind the first brace. -/
theorem between?_braces {text content : List Char} {start : Nat}
    (stands : StandsAt text start ('{' :: (content ++ ['}']))) :
    between? start (start + 1 + byteLength content + 1) text = some ('{' :: (content ++ ['}'])) ∧
      between? (start + 1) (start + 1 + byteLength content) text = some content := by
  have bytes : byteLength ('{' :: (content ++ ['}'])) = 1 + byteLength content + 1 := by
    rw [← List.singleton_append, byteLength_append, byteLength_append, Nat.add_assoc]
    rfl
  have inside : StandsAt ('{' :: (content ++ ['}'])) (byteLength ['{']) content :=
    StandsAt.append ['{'] content ['}']
  have whole := stands.between?
  rw [bytes, ← Nat.add_assoc, ← Nat.add_assoc] at whole
  exact ⟨whole, (stands.within inside).between?⟩

theorem Placed.isWellPlaced {text before lead chars behind : List Char} {earlier : List ImportShape}
    {declaration : ImportDeclaration} {next : Cursor}
    (placed : Placed text before lead chars behind earlier declaration next) :
    IsWellPlaced text declaration := by
  rcases read?_passes placed.read with ⟨run, passes, stands, quotes⟩
  generalize shape : importWord ++ run = statement at passes stands
  have span := read?_span placed.read
  rw [passes.offset] at span
  simp only at span stands
  have found : StandsAt text (byteLength (before ++ lead)) statement := by
    refine ⟨before ++ lead, next.rest, ?_, rfl⟩
    rw [← passes.rest, placed.reaches.text_eq, List.append_assoc]
  have begins : importWord <+: statement := ⟨run, shape⟩
  refine ⟨⟨statement, ?_, begins, stands.specifier, stands.localNames⟩, ?_, ?_, ?_⟩
  · rw [span]
    exact found.between?
  · have bytes := length_le_byteLength run
    have length : byteLength statement = byteLength importWord + byteLength run := by
      rw [← shape, byteLength_append]
    have word : byteLength importWord = 6 := rfl
    rw [span]
    simp only
    omega
  · intro binding has
    rcases stands.defaultName binding has with ⟨place, inside, stop⟩
    have within := inside.add_le
    have named := (found.within inside).between?
    rw [span, stop, Nat.add_sub_assoc (by omega), Nat.add_sub_cancel, ← Nat.add_assoc]
    exact ⟨by simp only; omega, by simp only; omega, named⟩
  · intro list has
    rcases stands.braces list has with ⟨place, inside, starts, closed, -⟩
    have within := inside.add_le
    rw [← List.singleton_append, byteLength_append, byteLength_append] at within
    have braces : byteLength ['{'] = 1 ∧ byteLength ['}'] = 1 := ⟨rfl, rfl⟩
    have behind : byteLength (before ++ lead) + (place + 1) = byteLength (before ++ lead) + place + 1 := rfl
    rcases between?_braces (found.within inside) with ⟨enclosed, listed⟩
    rw [span, BraceList.span, starts]
    simp only
    rw [behind, Nat.add_sub_cancel]
    exact ⟨by omega, by omega, enclosed, listed, closed⟩

/-- Where no line starts, a declaration is found behind a `;` at the earliest. -/
theorem lt_start_of_mem_scanFrom {offset : Nat} {text : List Char} {declaration : ImportDeclaration}
    (member : declaration ∈ scanFrom 0 false offset text) : offset < declaration.span.start := by
  cases text with
  | nil => simp [scanFrom] at member
  | cons c text =>
      have size := c.utf8Size_pos
      have later {skip : Nat} {lineStart : Bool}
          (member : declaration ∈ scanFrom skip lineStart (offset + c.utf8Size) text) :
          offset < declaration.span.start := by
        rcases read?_of_mem_scanFrom member with ⟨before, _, _, -, start, -⟩
        omega
      rw [scanFrom] at member
      split at member
      · exact later member
      · rename_i found next anchored
        rcases List.mem_cons.mp member with rfl | deeper
        · rcases readAnchored?_eq_some anchored with ⟨lead, middle, led, passes, read⟩
          have filled : 0 < byteLength lead := by
            cases led with
            | line atStart _ => simp at atStart
            | semicolon _ =>
                rw [byteLength]
                exact Nat.lt_of_lt_of_le (Char.utf8Size_pos ';') (Nat.le_add_right _ _)
          rw [read?_span read, passes.offset]
          exact Nat.lt_add_of_pos_right filled
        · exact later deeper

theorem Placed.stop_le {text before lead chars behind : List Char} {earlier : List ImportShape}
    {declaration later : ImportDeclaration} {next : Cursor}
    (placed : Placed text before lead chars behind earlier declaration next)
    (member : later ∈ scanFrom 0 false (byteLength (before ++ lead ++ chars)) behind) :
    declaration.span.stop ≤ later.span.start := by
  have behindChars := lt_start_of_mem_scanFrom member
  have closes := placed.spans.closes
  rw [read?_span placed.read]
  rcases Cursor.skip_singleton_passes ';' ⟨byteLength (before ++ lead ++ chars), behind⟩ with
    passes | passes
  all_goals
    rw [← closes] at passes
    have stop := passes.offset
    have semicolon : byteLength [';'] = 1 := rfl
    simp only [byteLength] at stop semicolon
    simp only
    omega

/-! ## The search, one declaration after the other -/

/-- The first declaration behind `front`, and the two parts of the document between which the search goes
on after it. -/
def nextDeclaration? (front : List Char) :
    List Char → Option (ImportDeclaration × List Char × List Char)
  | [] => none
  | c :: rest =>
    match readAnchored? (startsLine front) ⟨byteLength front, c :: rest⟩ with
    | some (found, next) =>
      let count := charactersUntil (c :: rest) next
      some (found, front ++ (c :: rest).take count, (c :: rest).drop count)
    | none => nextDeclaration? (front ++ [c]) rest

/-- The declarations behind `front`, when at most so many searches may be made. The last search finds
nothing. -/
def search? : (searches : Nat) → (front rest : List Char) → Option (List ImportDeclaration)
  | 0, _, _ => none
  | searches + 1, front, rest =>
    match nextDeclaration? front rest with
    | none => some []
    | some (found, front, rest) => (search? searches front rest).map (found :: ·)

theorem scanFrom_eq_nextDeclaration? (front rest : List Char) :
    scanFrom 0 (startsLine front) (byteLength front) rest =
      match nextDeclaration? front rest with
      | none => []
      | some (found, front, rest) =>
        found :: scanFrom 0 (startsLine front) (byteLength front) rest := by
  induction rest generalizing front with
  | nil => rfl
  | cons c rest ih =>
      rw [nextDeclaration?]
      cases anchored : readAnchored? (startsLine front) ⟨byteLength front, c :: rest⟩ with
      | none =>
          have later := ih (front ++ [c])
          rw [startsLine_append_singleton, byteLength_append] at later
          simp only [scanFrom, anchored]
          exact later
      | some found =>
          rcases found with ⟨declaration, next⟩
          rcases readAnchored?_eq_some anchored with ⟨lead, start, led, passes, read⟩
          rcases read?_statement read with ⟨chars, middle, spans, statement⟩
          have text : c :: rest = lead ++ chars ++ middle.rest := by
            rw [List.append_assoc, ← spans.passes.rest]
            exact passes.rest
          have count : charactersUntil (c :: rest) next = (lead ++ chars).length := by
            rw [text, List.append_assoc]
            exact charactersUntil_eq statement.ne_nil statement.ends spans.closes
          have place := (passes.trans spans.passes).offset
          rw [scanFrom_statement led passes read spans statement]
          simp only [count]
          rw [text, List.take_left, List.drop_left, ← List.append_assoc, startsLine_statement statement,
            List.append_assoc, byteLength_append, ← place]

/-- One more search than there are declarations is made. -/
theorem search?_eq (searches : Nat) (front rest : List Char) :
    search? searches front rest =
      if (scanFrom 0 (startsLine front) (byteLength front) rest).length < searches then
        some (scanFrom 0 (startsLine front) (byteLength front) rest)
      else none := by
  induction searches generalizing front rest with
  | zero => simp [search?]
  | succ searches ih =>
      rw [search?, scanFrom_eq_nextDeclaration? front rest]
      cases nextDeclaration? front rest with
      | none => simp
      | some found =>
          rcases found with ⟨declaration, front, rest⟩
          simp only [ih, List.length_cons, Nat.add_lt_add_iff_right]
          split_ifs <;> rfl

end ImportDeclaration

/-! ## All declarations of a document -/

/-- The declarations of a document are well-placed and in order, and the search for them ends. -/
structure ScanIsWellPlaced (text : List Char) : Prop where
  ends : ∀ searches, ImportDeclaration.search? searches [] text =
    if (scanImports text).length < searches then some (scanImports text) else none
  bounded : 8 * (scanImports text).length ≤ byteLength text
  ordered : (scanImports text).Pairwise fun earlier later => earlier.span.stop ≤ later.span.start
  placed : ∀ declaration ∈ scanImports text, declaration.IsWellPlaced text

/-- Spans of at least eight bytes that do not overlap are as few as fit into a text. -/
theorem length_le_of_ordered {declarations : List ImportDeclaration} {low high : Nat}
    (ordered : declarations.Pairwise fun earlier later => earlier.span.stop ≤ later.span.start)
    (filled : ∀ declaration ∈ declarations, low ≤ declaration.span.start ∧
      declaration.span.start + 8 ≤ declaration.span.stop ∧ declaration.span.stop ≤ high)
    (room : low ≤ high) : low + 8 * declarations.length ≤ high := by
  induction declarations generalizing low with
  | nil => simpa using room
  | cons declaration declarations ih =>
      rcases List.pairwise_cons.mp ordered with ⟨before, ordered⟩
      rcases List.forall_mem_cons.mp filled with ⟨⟨starts, bytes, stops⟩, filled⟩
      have later := ih ordered (fun other member => ⟨before other member, (filled other member).2⟩) stops
      rw [List.length_cons]
      omega

theorem ordered_scanImports (text : List Char) :
    (scanImports text).Pairwise fun earlier later => earlier.span.stop ≤ later.span.start := by
  suffices ∀ earlier later, scanImports text = earlier ++ later →
      later.Pairwise fun earlier later => earlier.span.stop ≤ later.span.start from this [] _ rfl
  intro earlier later scan
  induction later generalizing earlier with
  | nil => exact .nil
  | cons declaration later ih =>
      rcases ImportDeclaration.exists_placed_of_scan scan with
        ⟨before, lead, chars, behind, next, placed, rfl⟩
      refine .cons (fun other member => placed.stop_le member) (ih (earlier ++ [declaration]) ?_)
      simpa using scan

theorem scanImports_wellPlaced (text : List Char) : ScanIsWellPlaced text := by
  have placed : ∀ declaration ∈ scanImports text, declaration.IsWellPlaced text := by
    intro declaration member
    rcases ImportDeclaration.exists_placed_of_mem member with ⟨_, _, _, _, _, _, found⟩
    exact found.isWellPlaced
  refine ⟨fun searches => ImportDeclaration.search?_eq searches [] text, ?_, ordered_scanImports text,
    placed⟩
  have inside : ∀ declaration ∈ scanImports text, 0 ≤ declaration.span.start ∧
      declaration.span.start + 8 ≤ declaration.span.stop ∧ declaration.span.stop ≤ byteLength text := by
    intro declaration member
    rcases ImportDeclaration.exists_end_of_mem member with ⟨front, rest, rfl, stop⟩
    rw [stop, byteLength_append]
    exact ⟨Nat.zero_le _, stop ▸ (placed declaration member).filled, Nat.le_add_right _ _⟩
  simpa using length_le_of_ordered (ordered_scanImports text) inside (Nat.zero_le _)

/-- The `;` between two declarations on a line belongs to the first, and the second is found from it on. -/
example : (scanImports "import a from 'a'; import b from 'b'".toList).map (·.span) =
    [⟨0, 18⟩, ⟨19, 36⟩] := by decide +kernel

end AutoImport
