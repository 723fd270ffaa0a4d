import AutoImport.Proofs.Import.Insertion

/-!
# What an import does to a document

`ImportShape.imported` tells what the declarations of a document say once a symbol is imported: one of
them has one more binding, or there is one more declaration behind the others. The edit of
`ImportStyle.importSymbol` does this and nothing else to the declarations that a scan finds.
-/

namespace AutoImport

open Text ImportDeclaration

/-- A list with its first item that satisfies a test changed, if there is one. -/
def changeFirst? {α : Type} (test : α → Bool) (change : α → α) : List α → Option (List α)
  | [] => none
  | item :: items =>
    if test item then some (change item :: items)
    else (changeFirst? test change items).map (item :: ·)

theorem changeFirst?_append {α : Type} {test : α → Bool} {change : α → α} {earlier later : List α}
    {item : α} (before : ∀ other ∈ earlier, test other = false) (here : test item = true) :
    changeFirst? test change (earlier ++ item :: later) = some (earlier ++ change item :: later) := by
  induction earlier with
  | nil => simp [changeFirst?, here]
  | cons first earlier ih =>
      rw [List.cons_append, changeFirst?, before first List.mem_cons_self,
        ih fun other member => before other (List.mem_cons_of_mem _ member)]
      rfl

theorem changeFirst?_eq_none {α : Type} {test : α → Bool} {change : α → α} {items : List α}
    (all : ∀ item ∈ items, test item = false) : changeFirst? test change items = none := by
  induction items with
  | nil => rfl
  | cons item items ih =>
      rw [changeFirst?, all item List.mem_cons_self,
        ih fun other member => all other (List.mem_cons_of_mem _ member)]
      rfl

namespace ImportShape

/-- A declaration of values of the given module. -/
def isOf (specifier : String) (shape : ImportShape) : Bool :=
  shape.specifier == specifier && !shape.typeOnly

/-- A declaration with a default binding and nothing else. -/
def isDefaultOnly (shape : ImportShape) : Bool :=
  shape.defaultName.isSome && shape.namespaceName.isNone && shape.bindings.isNone

/-- A declaration with one more binding at the end of its braces. -/
def withBinding (binding : ImportBinding) (shape : ImportShape) : ImportShape :=
  { shape with bindings := some (shape.bindings.getD [] ++ [binding]) }

/-- What the declarations of a document say once a binding of a module is imported. -/
def imported (specifier : String) (binding : ImportBinding) (shapes : List ImportShape) :
    List ImportShape :=
  ((changeFirst? (fun shape => shape.isOf specifier && shape.bindings.isSome) (withBinding binding)
    shapes).or
    (changeFirst? (fun shape => shape.isOf specifier && shape.isDefaultOnly) (withBinding binding)
      shapes)).getD
    (shapes ++ [⟨specifier, false, none, none, some [binding]⟩])

end ImportShape

/-- The word `import` at an offset lies in a declaration of the document. -/
def DeclaredAt (text : List Char) (offset : Nat) : Prop :=
  ∃ declaration ∈ scanImports text, declaration.span.start ≤ offset ∧
    offset + byteLength importWord ≤ declaration.span.stop

instance (text : List Char) (offset : Nat) : Decidable (DeclaredAt text offset) :=
  inferInstanceAs (Decidable (∃ declaration ∈ scanImports text, declaration.span.start ≤ offset ∧
    offset + byteLength importWord ≤ declaration.span.stop))

/-- What stands between two parts of a text is a word of its own. -/
def WordBetween (before after : List Char) : Prop :=
  (∀ c ∈ before.getLast?, isWordPart c = false) ∧ ∀ c ∈ after.head?, isWordPart c = false

instance (before after : List Char) : Decidable (WordBetween before after) :=
  @instDecidableAnd _ _ (Option.decidableForallMem before.getLast?)
    (Option.decidableForallMem after.head?)

/-- Every word `import` of a document lies in one of its declarations. -/
def ImportsDeclared (text : List Char) : Prop :=
  ∀ before after, text = before ++ (importWord ++ after) → WordBetween before after →
    DeclaredAt text (byteLength before)

theorem importsDeclared_iff (text : List Char) :
    ImportsDeclared text ↔ ∀ count ∈ List.range (text.length + 1),
      ∀ after ∈ dropPrefix? importWord (text.drop count), WordBetween (text.take count) after →
        DeclaredAt text (byteLength (text.take count)) := by
  constructor
  · intro all count _ after found
    refine all (text.take count) after ?_
    rw [← dropPrefix?_eq_some_iff.mp found, List.take_append_drop]
  · rintro all before after rfl
    have within : before.length ∈ List.range ((before ++ (importWord ++ after)).length + 1) := by
      rw [List.mem_range, List.length_append]
      omega
    have cut := all before.length within
    rw [List.take_left, List.drop_left] at cut
    exact cut after (dropPrefix?_eq_some_iff.mpr rfl)

instance (text : List Char) : Decidable (ImportsDeclared text) :=
  decidable_of_iff _ (importsDeclared_iff text).symm

/-- A comma follows the given offset of a document, perhaps behind blanks. -/
def CommaAt (text : List Char) (offset : Nat) : Prop :=
  ∃ cut ∈ splitAtByte? offset text, (cut.2.dropWhile isBlank).head? = some ','

instance (text : List Char) (offset : Nat) : Decidable (CommaAt text offset) :=
  inferInstanceAs (Decidable (∃ cut ∈ splitAtByte? offset text,
    (cut.2.dropWhile isBlank).head? = some ','))

/-- No declaration with a default binding and nothing else has a comma behind the binding. -/
def NoDanglingComma (text : List Char) : Prop :=
  ∀ declaration ∈ scanImports text, declaration.shape.isDefaultOnly = true →
    ∀ binding ∈ declaration.defaultBinding, ¬CommaAt text binding.stop

instance (text : List Char) : Decidable (NoDanglingComma text) :=
  inferInstanceAs (Decidable (∀ declaration ∈ scanImports text,
    declaration.shape.isDefaultOnly = true →
      ∀ binding ∈ declaration.defaultBinding, ¬CommaAt text binding.stop))

theorem ImportsDeclared.covered {text : List Char} (declared : ImportsDeclared text) :
    Covered true ⟨0, text⟩ (scanImports text) := by
  intro before after shape notWord _ notWordBefore
  obtain ⟨declaration, member, starts, stops⟩ := declared before after shape ⟨notWordBefore, notWord⟩
  exact ⟨declaration, member, by simpa using starts, by simpa using stops⟩

/-! ## Which declaration is changed -/

theorem findSome?_filter {α β : Type} (test : α → Bool) (value : α → Option β) (items : List α) :
    (items.filter test).findSome? value =
      items.findSome? fun item => if test item then value item else none := by
  induction items with
  | nil => rfl
  | cons item items ih => by_cases holds : test item <;> simp [List.findSome?_cons, holds, ih]

theorem findSome?_filter_eq_some {α β : Type} {test : α → Bool} {value : α → Option β}
    {items : List α} {result : β} (found : (items.filter test).findSome? value = some result) :
    ∃ earlier item later, items = earlier ++ item :: later ∧ test item = true ∧
      value item = some result ∧ ∀ other ∈ earlier, (test other && (value other).isSome) = false := by
  rw [findSome?_filter] at found
  obtain ⟨earlier, item, later, rfl, here, before⟩ := List.findSome?_eq_some_iff.mp found
  obtain ⟨passes, here⟩ := Option.ite_none_right_eq_some.mp here
  refine ⟨earlier, item, later, rfl, passes, here, fun other member => ?_⟩
  cases passesOther : test other with
  | false => rfl
  | true => simpa [passesOther] using before other member

theorem findSome?_filter_eq_none {α β : Type} {test : α → Bool} {value : α → Option β}
    {items : List α} (found : (items.filter test).findSome? value = none) :
    ∀ other ∈ items, (test other && (value other).isSome) = false := by
  intro other member
  rw [findSome?_filter] at found
  cases passes : test other with
  | false => rfl
  | true => simpa [passes] using List.findSome?_eq_none_iff.mp found other member

namespace ImportDeclaration

@[simp]
theorem shape_bindings_isSome (declaration : ImportDeclaration) :
    declaration.shape.bindings.isSome = declaration.braces.isSome := by
  simp [shape]

theorem shape_isOf (declaration : ImportDeclaration) (specifier : String) :
    declaration.shape.isOf specifier =
      (declaration.specifier == specifier && !declaration.typeOnly) :=
  rfl

theorem shape_isDefaultOnly (declaration : ImportDeclaration) :
    declaration.shape.isDefaultOnly =
      (declaration.defaultBinding.isSome && declaration.namespaceBinding.isNone &&
        declaration.braces.isNone) := by
  simp [shape, ImportShape.isDefaultOnly]

/-- Without a namespace, what has a default binding has nothing else unless it has braces. -/
theorem shape_isDefaultOnly_of_first {declaration : ImportDeclaration} {specifier : String}
    (passed : (declaration.namespaceBinding.isNone &&
      (declaration.specifier == specifier && !declaration.typeOnly) &&
        declaration.defaultBinding.isSome) = false) :
    (declaration.shape.isOf specifier && declaration.shape.isDefaultOnly) = false := by
  rw [shape_isDefaultOnly, shape_isOf]
  cases noNamespace : declaration.namespaceBinding.isNone with
  | false => simp
  | true =>
      rw [noNamespace, Bool.true_and] at passed
      rw [Bool.and_true, ← Bool.and_assoc, passed, Bool.false_and]

/-- The edit of `merge?` belongs to the first declaration of values of the module that has braces, else
to the first that has a default binding and nothing else. -/
theorem merge?_eq_some {declarations : List ImportDeclaration} {specifier rendered : String}
    {edit : TextEdit}
    (found : merge? (declarations.filter fun other => other.specifier == specifier && !other.typeOnly)
      rendered = some edit) :
    ∃ earlier declaration later, declarations = earlier ++ declaration :: later ∧
      declaration.shape.isOf specifier = true ∧
      ((∃ list, declaration.braces = some list ∧ edit = list.add rendered ∧
          ∀ other ∈ earlier,
            (other.shape.isOf specifier && other.shape.bindings.isSome) = false) ∨
        ((∀ other ∈ declarations, (other.shape.isOf specifier && other.shape.bindings.isSome) = false) ∧
          ∃ binding, declaration.defaultBinding = some binding ∧
            declaration.shape.isDefaultOnly = true ∧
            edit = .insert binding.stop (", \x7b " ++ rendered ++ " \x7d") ∧
            ∀ other ∈ earlier,
              (other.shape.isOf specifier && other.shape.isDefaultOnly) = false)) := by
  rw [merge?] at found
  split at found
  · rename_i list search
    obtain rfl := Option.some.inj found
    obtain ⟨earlier, declaration, later, rfl, isOf, value, before⟩ := findSome?_filter_eq_some search
    refine ⟨earlier, declaration, later, rfl, isOf, .inl ⟨list, value, rfl, fun other member => ?_⟩⟩
    rw [shape_bindings_isSome]
    exact before other member
  · rename_i search
    have noBraces : ∀ other ∈ declarations,
        (other.shape.isOf specifier && other.shape.bindings.isSome) = false := by
      intro other member
      rw [shape_bindings_isSome]
      exact findSome?_filter_eq_none search other member
    obtain ⟨binding, search, rfl⟩ := Option.map_eq_some_iff.mp found
    rw [List.filter_filter] at search
    obtain ⟨earlier, declaration, later, rfl, both, value, before⟩ := findSome?_filter_eq_some search
    obtain ⟨noNamespace, isOf⟩ := Bool.and_eq_true_iff.mp both
    rw [← shape_isOf] at isOf
    have noneHere := noBraces declaration (by simp)
    refine ⟨earlier, declaration, later, rfl, isOf, .inr ⟨noBraces, binding, value, ?_, rfl,
      fun other member => shape_isDefaultOnly_of_first (before other member)⟩⟩
    simp only [isOf, shape_bindings_isSome, Bool.true_and] at noneHere
    rw [shape_isDefaultOnly, value, noNamespace]
    simpa using noneHere

theorem merge?_eq_none {declarations : List ImportDeclaration} {specifier rendered : String}
    (found : merge? (declarations.filter fun other => other.specifier == specifier && !other.typeOnly)
      rendered = none) :
    ∀ other ∈ declarations, (other.shape.isOf specifier && other.shape.bindings.isSome) = false ∧
      (other.shape.isOf specifier && other.shape.isDefaultOnly) = false := by
  rw [merge?] at found
  split at found
  · simp at found
  · rename_i search
    rw [Option.map_eq_none_iff, List.filter_filter] at found
    intro other member
    refine ⟨?_, shape_isDefaultOnly_of_first (findSome?_filter_eq_none found other member)⟩
    rw [shape_bindings_isSome]
    exact findSome?_filter_eq_none search other member

/-! ## Edits of a statement -/

/-- An edit inside the text of a declaration, after which the text says `shape`. -/
inductive Amends (cursor next : Cursor) (edit : TextEdit) (shape : ImportShape) : Prop where
  | intro (front hole back : List Char) (middle : Cursor) (frontFilled : front ≠ [])
      (backFilled : back ≠ [])
      (spans : ReadOver cursor (importWord ++ (front ++ (hole ++ back))) middle next)
      (start : edit.start = cursor.offset + byteLength (importWord ++ front))
      (stop : edit.stop = edit.start + byteLength hole)
      (statement : IsStatement (importWord ++ (front ++ (edit.newText.toList ++ back))) shape)

/-- The parts that an edit cuts a statement into. -/
theorem Amends.exists_parts {start middle next : Cursor} {chars : List Char} {edit : TextEdit}
    {old shape : ImportShape} (amends : Amends start next edit shape)
    (spans : ReadOver start chars middle next) (isStatement : IsStatement chars old) :
    ∃ front hole back, front ≠ [] ∧ chars = importWord ++ (front ++ (hole ++ back)) ∧
      edit.start = start.offset + byteLength (importWord ++ front) ∧
      edit.stop = edit.start + byteLength hole ∧
      IsStatement (importWord ++ (front ++ (edit.newText.toList ++ back))) shape := by
  obtain ⟨front, hole, back, other, frontFilled, backFilled, spansHere, starts, stops, statement⟩ :=
    amends
  have endsHere : ∀ c ∈ (importWord ++ (front ++ (hole ++ back))).getLast?,
      isQuote c = true ∨ isInlineBlank c = true := by
    obtain ⟨c, last⟩ := Option.ne_none_iff_exists'.mp (mt List.getLast?_eq_none_iff.mp backFilled)
    have endsNew := statement.ends c (by simp [List.getLast?_append, last])
    intro d member
    obtain rfl : c = d := by simpa [List.getLast?_append, last] using member
    exact endsNew
  obtain ⟨same, -⟩ := spans.unique spansHere isStatement.ne_nil isStatement.ends
    (by simp [importWord]) endsHere
  exact ⟨front, hole, back, frontFilled, same, starts, stops, statement⟩

/-- An edit inside a declaration changes what this declaration says and no other. -/
theorem Scanned.amend {text : List Char} {earlier later : List ImportDeclaration}
    {declaration : ImportDeclaration} {edit : TextEdit} {shape : ImportShape}
    (scanned : Scanned true ⟨0, text⟩ (earlier ++ declaration :: later))
    (amends : ∀ before start next, text = before ++ start.rest → start.offset = byteLength before →
      read? start = some (declaration, next) → Amends start next edit shape) :
    ∃ after, edit.applied? text = some after ∧
      (scanImports after).map ImportDeclaration.shape =
        earlier.map ImportDeclaration.shape ++ shape :: later.map ImportDeclaration.shape := by
  obtain ⟨before, start, chars, middle, next, passes, read, spans, statement, -, scannedLater,
    exchange⟩ := scanned.split
  have place : start.offset = byteLength before := by simpa using passes.offset
  obtain ⟨front, hole, back, frontFilled, rfl, startHere, stopHere, statementNew⟩ :=
    (amends before start next passes.rest place read).exists_parts spans statement
  have whole : text = before ++ (importWord ++ front) ++ hole ++ (back ++ middle.rest) := by
    have := passes.rest
    simp only [spans.passes.rest] at this
    simpa using this
  have position : edit = ⟨byteLength (before ++ (importWord ++ front)),
      byteLength (before ++ (importWord ++ front)) + byteLength hole, edit.newText⟩ := by
    rw [byteLength_append before, ← place, ← startHere, ← stopHere]
  refine ⟨before ++ (importWord ++ (front ++ (edit.newText.toList ++ back)) ++ middle.rest), ?_, ?_⟩
  · rw [position, whole, TextEdit.applied?_append]
    simp
  · have same : (importWord ++ (front ++ (edit.newText.toList ++ back))).take 7 =
        (importWord ++ (front ++ (hole ++ back))).take 7 := by
      obtain ⟨c, front, rfl⟩ := List.exists_cons_of_ne_nil frontFilled
      rfl
    exact (exchange _ _ _ _ same statementNew spans.stops scannedLater.laid).scanFrom 0

theorem amends_braces {start next : Cursor} {declaration : ImportDeclaration} {list : BraceList}
    {name : String} (read : read? start = some (declaration, next))
    (plain : declaration.typeOnly = false) (has : declaration.braces = some list)
    (identifier : IsIdentifier name.toList) :
    Amends start next (list.add name) (declaration.shape.withBinding ⟨name, none⟩) := by
  obtain ⟨front, content, back, middle, frontFilled, backFilled, spans, listShape, inside, fill⟩ :=
    read?_braces read plain has
  have adds :=
    BraceList.add_adds (start.offset + byteLength (importWord ++ front)) content identifier
  rw [← listShape] at adds
  obtain ⟨kept, removed, after, rfl, starts, stops, closed, bound⟩ := adds
  refine .intro (front ++ kept) removed (after ++ back) middle (by simp [frontFilled])
    (by simp [backFilled]) (by simpa using spans) ?_ stops ?_
  · rw [starts, ← List.append_assoc, byteLength_append _ kept, Nat.add_assoc]
  · have closedNow : '}' ∉ kept ++ ((list.add name).newText.toList ++ after) := by
      simp only [List.mem_append, not_or] at inside ⊢
      exact ⟨inside.1, closed, inside.2.2⟩
    have statement := fill _ closedNow
    rw [bound] at statement
    have shaped : declaration.shape.withBinding ⟨name, none⟩ = { declaration.shape with
        bindings := some (bindings (kept ++ (removed ++ after)) ++ [⟨name, none⟩]) } := by
      simp [ImportShape.withBinding, shape, has, listShape]
    rw [shaped]
    simpa using statement

theorem amends_default {start next : Cursor} {declaration : ImportDeclaration}
    {binding : DefaultBinding} {name : String} (read : read? start = some (declaration, next))
    (plain : declaration.typeOnly = false) (has : declaration.defaultBinding = some binding)
    (only : declaration.shape.isDefaultOnly = true)
    (noComma : ∀ front rest, start.rest = front ++ rest →
      binding.stop = start.offset + byteLength front → (rest.dropWhile isBlank).head? ≠ some ',')
    (identifier : IsIdentifier name.toList) :
    Amends start next (.insert binding.stop (", \x7b " ++ name ++ " \x7d"))
      (declaration.shape.withBinding ⟨name, none⟩) := by
  rw [shape_isDefaultOnly, Bool.and_eq_true, Bool.and_eq_true] at only
  have noNamespace : declaration.namespaceBinding = none := by simpa using only.1.2
  have noBraces : declaration.braces = none := by simpa using only.2
  obtain ⟨front, back, middle, frontFilled, backFilled, spans, stops, fill⟩ :=
    read?_default read plain has noNamespace noBraces noComma
  refine .intro front [] back middle frontFilled backFilled spans stops rfl ?_
  have closed : '}' ∉ [' '] ++ name.toList ++ [' '] := by
    have inName : '}' ∉ name.toList := identifier.not_mem (by decide)
    simp [inName]
  have shaped : declaration.shape.withBinding ⟨name, none⟩ = { declaration.shape with
      bindings := some (bindings ([' '] ++ name.toList ++ [' '])) } := by
    rw [bindings_spaced identifier, String.ofList_toList]
    simp [ImportShape.withBinding, shape, noBraces]
  rw [shaped]
  simpa [TextEdit.insert] using fill _ closed

end ImportDeclaration

/-! ## New statements -/

section

variable (style : ImportStyle) {text : List Char} {name specifier : String}
  (identifier : IsIdentifier name.toList)
  (plain : ∀ c ∈ specifier.toList, (!isQuote c && c != '\n') = true)

include identifier plain

/-- A new line behind a line that is not looked at from its start. -/
theorem laid_line {gap rest : List Char} (optional : gap = [] ∨ gap = [';'])
    (wordless : Wordless true rest) :
    Laid false (gap ++ '\n' :: ((style.statement [⟨name, none⟩] specifier).toList ++ rest))
      [newShape name specifier] := by
  have laid := style.laid_statement identifier plain wordless
  have noFeed {run : List Char} (inline : ∀ c ∈ run, isInlineBlank c = true) : '\n' ∉ run :=
    fun member => absurd (inline _ member) (by decide)
  have line : Laid false ('\n' :: ((style.statement [⟨name, none⟩] specifier).toList ++ rest))
      [newShape name specifier] :=
    .gap (not_anchored_feed _ _) laid
  rcases optional with rfl | rfl
  · exact line
  · refine .gap ?_ line
    rintro ⟨lead, tail, shape, led, begins⟩
    cases led with
    | line atStart _ => simp at atStart
    | @semicolon run inline =>
        have behind : '\n' :: ((style.statement [⟨name, none⟩] specifier).toList ++ rest) =
            run ++ tail := (List.cons.inj shape).2
        cases run with
        | nil =>
            have head := begins.head
            rw [List.nil_append] at behind
            simp [← behind] at head
        | cons c run =>
            obtain ⟨rfl, -⟩ := List.cons.inj behind
            exact noFeed inline List.mem_cons_self

/-- A statement on a new line behind the last declaration is one more declaration. -/
theorem insert_behind {earlier : List ImportDeclaration} {declaration : ImportDeclaration}
    (scanned : Scanned true ⟨0, text⟩ (earlier ++ [declaration])) :
    ∃ after, (TextEdit.insert declaration.span.stop
        ("\n" ++ style.statement [⟨name, none⟩] specifier)).applied? text = some after ∧
      (scanImports after).map ImportDeclaration.shape =
        (earlier ++ [declaration]).map ImportDeclaration.shape ++ [newShape name specifier] := by
  obtain ⟨before, start, chars, middle, next, passes, read, spans, statement, covered, -, exchange⟩ :=
    scanned.split
  have wordless := covered.wordless
  obtain ⟨gap, optional, passesGap, wordlessNext⟩ : ∃ gap, (gap = [] ∨ gap = [';']) ∧
      middle.Passes gap next ∧ Wordless true next.rest := by
    rw [spans.closes]
    rcases Cursor.skip_singleton_passes ';' middle with stays | one
    · refine ⟨[], .inl rfl, stays, ?_⟩
      rw [stays.rest] at wordless
      exact wordless
    · refine ⟨[';'], .inr rfl, one, ?_⟩
      rw [one.rest] at wordless
      exact wordless.tail
  have all := (passes.trans spans.passes).trans passesGap
  have whole : text = before ++ chars ++ gap ++ next.rest := by simpa using all.rest
  have position : declaration.span.stop = byteLength (before ++ chars ++ gap) := by
    rw [read?_span read]
    simpa using all.offset
  have laid := laid_line style identifier plain optional wordlessNext
  have stops : StopsInline
      (gap ++ '\n' :: ((style.statement [⟨name, none⟩] specifier).toList ++ next.rest)) := by
    rcases optional with rfl | rfl <;> · rintro c ⟨⟩; decide
  refine ⟨before ++ (chars ++ (gap ++
    '\n' :: ((style.statement [⟨name, none⟩] specifier).toList ++ next.rest))), ?_, ?_⟩
  · rw [position, whole, TextEdit.applied?_insert]
    simp
  · have found := (exchange _ _ _ _ rfl statement stops laid).scanFrom 0
    rw [List.map_append, List.map_singleton, List.append_assoc]
    exact found

omit identifier plain in
theorem exists_gap_wordless {rest : List Char} (wordless : Wordless true rest) :
    ∃ gap : String, (if (rest.isEmpty || startsWith ['\n'] rest ||
        startsWith ['\r', '\n'] rest) = true then "\n" else "\n\n") = gap ∧
      Wordless true (gap.toList ++ rest) := by
  refine ⟨_, rfl, ?_⟩
  split
  · exact wordless.cons (by decide)
  · exact (wordless.cons (by decide)).cons (by decide)

omit identifier plain in
theorem exists_lead_wordless {before rest : List Char} (wordless : Wordless true (before ++ rest))
    (header : before = [] ∨ before.getLast? = some '\n' ∨ rest = []) :
    ∃ lead : String,
      (if (before.isEmpty || before.getLast? == some '\n') = true then "" else "\n") = lead ∧
      (before ++ lead.toList = [] ∨ (before ++ lead.toList).getLast? = some '\n') ∧
      Wordless true (before ++ lead.toList) := by
  refine ⟨_, rfl, ?_⟩
  split
  · rename_i atLine
    simp only [String.toList_empty, List.append_nil]
    rcases Bool.or_eq_true_iff.mp atLine with empty | feed
    · rw [List.isEmpty_iff.mp empty]
      exact ⟨.inl rfl, wordless_nil true⟩
    · have last : before.getLast? = some '\n' := by simpa using feed
      exact ⟨.inr last, wordless.lines last⟩
  · rename_i noLine
    have atEnd : rest = [] := by
      rcases header with empty | last | ended
      · simp [empty] at noLine
      · simp [last] at noLine
      · exact ended
    rw [atEnd, List.append_nil] at wordless
    exact ⟨.inr (by simp), wordless.append_feed⟩

omit identifier plain in
/-- The lines before a new statement behind the header end where the statement begins, and neither they
nor what comes behind the statement has the word `import`. -/
theorem insertStatement_header (wordless : Wordless true text) (statement : String) :
    ∃ (before rest : List Char) (lead gap : String), text = before ++ rest ∧
      insertStatement text [] statement = .insert (byteLength before) (lead ++ statement ++ gap) ∧
      (before ++ lead.toList = [] ∨ (before ++ lead.toList).getLast? = some '\n') ∧
      Wordless true (before ++ lead.toList) ∧ Wordless true (gap.toList ++ rest) := by
  obtain ⟨cut, header⟩ := splitHeader_spec text
  obtain ⟨before, beforeShape⟩ : ∃ before, (splitHeader text).1 = before := ⟨_, rfl⟩
  obtain ⟨rest, restShape⟩ : ∃ rest, (splitHeader text).2 = rest := ⟨_, rfl⟩
  rw [beforeShape, restShape] at cut header
  rw [cut] at wordless
  have wordlessRest : Wordless true rest := by
    rcases header with rfl | last | rfl
    · exact wordless
    · exact wordless.behind last (by decide)
    · exact wordless_nil true
  obtain ⟨gap, gapShape, wordlessGap⟩ := exists_gap_wordless wordlessRest
  obtain ⟨lead, leadShape, ends, wordlessLead⟩ := exists_lead_wordless wordless header
  refine ⟨before, rest, lead, gap, cut, ?_, ends, wordlessLead, wordlessGap⟩
  simp only [insertStatement, List.getLast?_nil]
  simp only [beforeShape, restShape, leadShape, gapShape]

/-- A statement behind the header of a document without the word `import` is its only declaration. -/
theorem insert_header (wordless : Wordless true text) :
    ∃ after, (insertStatement text [] (style.statement [⟨name, none⟩] specifier)).applied? text =
        some after ∧
      (scanImports after).map ImportDeclaration.shape = [newShape name specifier] := by
  obtain ⟨before, rest, lead, gap, cut, edit, ends, wordlessLead, wordlessGap⟩ :=
    insertStatement_header wordless (style.statement [⟨name, none⟩] specifier)
  have laid := style.laid_statement identifier plain wordlessGap
  refine ⟨(before ++ lead.toList) ++
    ((style.statement [⟨name, none⟩] specifier).toList ++ (gap.toList ++ rest)), ?_, ?_⟩
  · rw [edit, cut, TextEdit.applied?_insert]
    simp
  · rcases ends with atEnd | feed
    · rw [atEnd, List.nil_append]
      exact laid.scanFrom 0
    · exact (wordlessLead.laid_append (by simp) feed laid).scanFrom 0

end

/-! ## The effect of an import -/

theorem ImportsDeclared.scanned {text : List Char} (declared : ImportsDeclared text) :
    Scanned true ⟨0, text⟩ (scanImports text) :=
  Covered.scanned declared.covered fun _ => rfl

theorem forall_shape {declarations : List ImportDeclaration} {test : ImportShape → Bool}
    (all : ∀ declaration ∈ declarations, test declaration.shape = false) :
    ∀ shape ∈ declarations.map ImportDeclaration.shape, test shape = false := by
  intro shape member
  obtain ⟨declaration, inside, rfl⟩ := List.mem_map.mp member
  exact all declaration inside

/-- A merged binding is found at the end of the braces of its declaration. -/
theorem merge?_effect {text : List Char} {name specifier : String} {edit : TextEdit}
    (declared : ImportsDeclared text) (noComma : NoDanglingComma text)
    (identifier : IsIdentifier name.toList)
    (found : merge? ((scanImports text).filter fun other =>
      other.specifier == specifier && !other.typeOnly) name = some edit) :
    ∃ after, edit.applied? text = some after ∧
      (scanImports after).map ImportDeclaration.shape =
        ImportShape.imported specifier ⟨name, none⟩
          ((scanImports text).map ImportDeclaration.shape) := by
  obtain ⟨earlier, declaration, later, shape, isOf, changed⟩ := merge?_eq_some found
  have scanned := declared.scanned
  rw [shape] at scanned
  have plain : declaration.typeOnly = false := by
    rw [shape_isOf, Bool.and_eq_true] at isOf
    simpa using isOf.2
  have shapes : (scanImports text).map ImportDeclaration.shape =
      earlier.map ImportDeclaration.shape ++
        declaration.shape :: later.map ImportDeclaration.shape := by
    rw [shape, List.map_append, List.map_cons]
  rcases changed with ⟨list, has, rfl, before⟩ | ⟨noBraces, binding, has, only, rfl, before⟩
  · obtain ⟨after, applied, found⟩ := scanned.amend fun _ _ _ _ _ read =>
      amends_braces read plain has identifier
    refine ⟨after, applied, ?_⟩
    have here : (declaration.shape.isOf specifier && declaration.shape.bindings.isSome) = true := by
      rw [isOf, shape_bindings_isSome, has]
      rfl
    rw [found, shapes, ImportShape.imported, changeFirst?_append (forall_shape before) here]
    rfl
  · have member : declaration ∈ scanImports text := by simp [shape]
    obtain ⟨after, applied, found⟩ := scanned.amend fun front start next cut place read => by
      refine amends_default read plain has only (fun name rest here position => ?_) identifier
      intro comma
      have whole : text = (front ++ name) ++ rest := by rw [cut, here, List.append_assoc]
      refine noComma declaration member only binding has ⟨(front ++ name, rest), ?_, comma⟩
      rw [position, place, ← byteLength_append, whole]
      exact splitAtByte?_append _ _
    refine ⟨after, applied, ?_⟩
    have noneBraces : changeFirst? (fun shape => shape.isOf specifier && shape.bindings.isSome)
        (ImportShape.withBinding ⟨name, none⟩) ((scanImports text).map ImportDeclaration.shape) =
        none := changeFirst?_eq_none (forall_shape noBraces)
    have here : (declaration.shape.isOf specifier && declaration.shape.isDefaultOnly) = true := by
      rw [isOf, only]
      rfl
    rw [found, ImportShape.imported, noneBraces, Option.none_or, shapes,
      changeFirst?_append (forall_shape before) here]
    rfl

/-- A new statement is found behind all others. -/
theorem insertStatement_effect {style : ImportStyle} {text : List Char} {name specifier : String}
    (declared : ImportsDeclared text) (identifier : IsIdentifier name.toList)
    (plain : ∀ c ∈ specifier.toList, (!isQuote c && c != '\n') = true)
    (found : merge? ((scanImports text).filter fun other =>
      other.specifier == specifier && !other.typeOnly) name = none) :
    ∃ after, (insertStatement text (scanImports text)
        (style.statement [⟨name, none⟩] specifier)).applied? text = some after ∧
      (scanImports after).map ImportDeclaration.shape =
        ImportShape.imported specifier ⟨name, none⟩
          ((scanImports text).map ImportDeclaration.shape) := by
  have unmerged := merge?_eq_none found
  have shapes : ImportShape.imported specifier ⟨name, none⟩
      ((scanImports text).map ImportDeclaration.shape) =
      (scanImports text).map ImportDeclaration.shape ++ [newShape name specifier] := by
    rw [ImportShape.imported,
      changeFirst?_eq_none (forall_shape fun other member => (unmerged other member).1),
      changeFirst?_eq_none (forall_shape fun other member => (unmerged other member).2)]
    rfl
  rw [shapes]
  rcases List.eq_nil_or_concat (scanImports text) with empty | ⟨earlier, last, shape⟩
  · have wordless : Wordless true text := by
      have covered := declared.covered
      rw [empty] at covered
      exact covered.wordless
    rw [empty]
    exact insert_header style identifier plain wordless
  · have scanned := declared.scanned
    rw [List.concat_eq_append] at shape
    rw [shape] at scanned ⊢
    obtain ⟨after, applied, scan⟩ := insert_behind style identifier plain scanned
    refine ⟨after, ?_, scan⟩
    simpa [insertStatement] using applied

/-- An import changes what the declarations of a document say as `ImportShape.imported` tells. -/
theorem importSymbol_effect {style : ImportStyle} {document : Path} {text : List Char}
    {symbol : ExportedSymbol} {edit : ImportEdit} (declared : ImportsDeclared text)
    (noComma : NoDanglingComma text) (identifier : IsIdentifier symbol.name.toList)
    (returned : style.importSymbol document text symbol = .ok edit)
    (changes : edit.effect = .merged ∨ edit.effect = .inserted)
    (plain : ∀ c ∈ edit.specifier.toList, isQuote c = false ∧ c ≠ '\n') :
    ∃ after, edit.edit.applied? text = some after ∧
      (scanImports after).map ImportDeclaration.shape =
        ImportShape.imported edit.specifier ⟨symbol.name, none⟩
          ((scanImports text).map ImportDeclaration.shape) := by
  have plainChars {specifier : String} (same : edit.specifier = specifier) :
      ∀ c ∈ specifier.toList, (!isQuote c && c != '\n') = true := by
    intro c member
    obtain ⟨noQuote, noFeed⟩ := plain c (same ▸ member)
    simp [noQuote, noFeed]
  rw [ImportStyle.importSymbol] at returned
  cases resolved : resolveModule document symbol with
  | error _ => simp [resolved, bind, Except.bind] at returned
  | ok specifier =>
      simp only [resolved, bind, Except.bind] at returned
      split at returned
      · split at returned
        · obtain rfl := Except.ok.inj returned
          simp at changes
        · simp at returned
      · split at returned
        · rename_i merged
          obtain rfl := Except.ok.inj returned
          exact merge?_effect declared noComma identifier merged
        · rename_i notMerged
          obtain rfl := Except.ok.inj returned
          exact insertStatement_effect declared identifier (plainChars rfl) notMerged

/-- A binding joins the second of two declarations. -/
theorem importSymbol_effect_of_two :
    ∃ after, (TextEdit.insert 29 ", B").applied?
        "import D from 'd';\nimport { A } from 'm';\n".toList = some after ∧
      (scanImports after).map ImportDeclaration.shape =
        [⟨"d", false, some "D", none, none⟩,
          ⟨"m", false, none, none, some [⟨"A", none⟩, ⟨"B", none⟩]⟩] := by
  have found := @importSymbol_effect .standard ⟨"b.ts"⟩
    "import D from 'd';\nimport { A } from 'm';\n".toList ⟨"B", .variable, ⟨"a.ts"⟩, some "m"⟩
    ⟨.merged, "m", .insert 29 ", B"⟩ (by decide +kernel) (by decide +kernel)
    ⟨⟨'B', rfl, by decide⟩, List.all_eq_true.mp rfl⟩ rfl (.inl rfl) (by simp [isQuote])
  have shapes : ImportShape.imported "m" ⟨"B", none⟩ ((scanImports
      "import D from 'd';\nimport { A } from 'm';\n".toList).map ImportDeclaration.shape) =
      [⟨"d", false, some "D", none, none⟩,
        ⟨"m", false, none, none, some [⟨"A", none⟩, ⟨"B", none⟩]⟩] := by
    decide +kernel
  rw [shapes] at found
  exact found

end AutoImport
