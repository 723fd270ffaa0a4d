import AutoImport.Proofs.Import.Rescan
import Mathlib.Control.Monad.Basic

/-!
# Importing a symbol twice

A second import of a symbol finds what the first one has left in the document. It does so whenever the
scanner can read the name and the specifier back and nothing in front of the edit is left open.
-/

namespace AutoImport

open Text ImportDeclaration

/-! ## What an import returns -/

namespace ImportStyle

/-- The three ways in which an import succeeds. -/
theorem importSymbol_cases {style : ImportStyle} {document : Path} {text : List Char}
    {symbol : ExportedSymbol} {edit : ImportEdit}
    (returned : style.importSymbol document text symbol = .ok edit) :
    resolveModule document symbol = .ok edit.specifier ∧
      ((∃ declaration,
          (scanImports text).find? (·.localNames.contains symbol.name) = some declaration ∧
          declaration.provides edit.specifier ⟨symbol.name, none⟩ = true ∧
          edit.effect = .alreadyImported ∧ edit.edit = .insert declaration.span.stop "") ∨
        ((scanImports text).find? (·.localNames.contains symbol.name) = none ∧
          edit.effect = .merged ∧
          merge? ((scanImports text).filter fun other =>
            other.specifier == edit.specifier && !other.typeOnly) symbol.name = some edit.edit) ∨
        ((scanImports text).find? (·.localNames.contains symbol.name) = none ∧
          edit.effect = .inserted ∧
          merge? ((scanImports text).filter fun other =>
            other.specifier == edit.specifier && !other.typeOnly) symbol.name = none ∧
          edit.edit = insertStatement text (scanImports text)
            (style.statement [⟨symbol.name, none⟩] edit.specifier))) := by
  rw [importSymbol] at returned
  cases resolved : resolveModule document symbol with
  | error _ => simp [resolved, bind, Except.bind] at returned
  | ok specifier =>
      simp only [resolved, bind, Except.bind] at returned
      split at returned
      · rename_i declaration found
        split at returned
        · rename_i provides
          obtain rfl := Except.ok.inj returned
          exact ⟨rfl, .inl ⟨declaration, found, provides, rfl, rfl⟩⟩
        · simp at returned
      · rename_i notFound
        split at returned
        · rename_i merged
          obtain rfl := Except.ok.inj returned
          exact ⟨rfl, .inr (.inl ⟨notFound, rfl, merged⟩)⟩
        · rename_i notMerged
          obtain rfl := Except.ok.inj returned
          exact ⟨rfl, .inr (.inr ⟨notFound, rfl, notMerged, rfl⟩)⟩

/-- A symbol that a declaration provides is imported already. -/
theorem importSymbol_of_provides {style : ImportStyle} {document : Path} {text : List Char}
    {symbol : ExportedSymbol} {specifier : String} {declaration : ImportDeclaration}
    (resolved : resolveModule document symbol = .ok specifier)
    (found : (scanImports text).find? (·.localNames.contains symbol.name) = some declaration)
    (provides : declaration.provides specifier ⟨symbol.name, none⟩ = true) :
    style.importSymbol document text symbol =
      .ok ⟨.alreadyImported, specifier, .insert declaration.span.stop ""⟩ := by
  have foundHere : (scanImports text).find?
      (·.localNames.contains (ImportBinding.mk symbol.name none).localName) = some declaration :=
    found
  simp only [importSymbol, resolved, bind, Except.bind, foundHere, provides, if_true]

end ImportStyle

/-! ## What can be read back -/

/-- A name and a specifier that the scanner reads back from an import of that name. -/
structure ReadsBack (name specifier : String) : Prop where
  identifier : IsIdentifier name.toList
  plain : ∀ c ∈ specifier.toList, isQuote c = false ∧ c ≠ '\n'

namespace ImportDeclaration

theorem plainBinding?_isIdentifier {cursor : Cursor} {binding : ImportBinding}
    (found : plainBinding? cursor = some binding) : IsIdentifier binding.name.toList := by
  rcases Option.bind_eq_some_iff.mp found with ⟨⟨name, next⟩, read, found⟩
  have identifier := (identifier?_eq_some read).1
  simp only at found
  split at found
  · obtain rfl := Option.some.inj found
    exact identifier
  · rcases Option.bind_eq_some_iff.mp found with ⟨c, -, found⟩
    split at found
    · simp at found
    · rcases Option.bind_eq_some_iff.mp found with ⟨word, -, found⟩
      rcases Option.bind_eq_some_iff.mp found with ⟨⟨rename, last⟩, -, found⟩
      simp only at found
      split at found
      · obtain rfl := Option.some.inj found
        exact identifier
      · simp at found

theorem isIdentifier_of_mem_bindings {content : List Char} {binding : ImportBinding}
    (member : binding ∈ bindings content) : IsIdentifier binding.name.toList := by
  rcases List.mem_filterMap.mp member with ⟨entry, -, found⟩
  rcases Option.or_eq_some_iff.mp found with typed | ⟨-, plain⟩
  · rcases Option.bind_eq_some_iff.mp typed with ⟨word, -, read⟩
    exact plainBinding?_isIdentifier read
  · exact plainBinding?_isIdentifier plain

theorem clauses?_readsBack {start : Nat} {typeOnly : Bool} {cursor next : Cursor}
    {declaration : ImportDeclaration}
    (found : clauses? start typeOnly cursor = some (declaration, next)) {binding : ImportBinding}
    (member : binding ∈ declaration.named) : ReadsBack binding.name declaration.specifier := by
  rcases clauses?_eq_some_iff.mp found with ⟨_, _, _, -, -, readBraces, readSource, -, -⟩
  constructor
  · cases has : declaration.braces with
    | none => simp [named, has] at member
    | some list =>
        rw [has] at readBraces
        rcases braces?_eq_some readBraces with ⟨content, _, -, -, -, -, rfl⟩
        have inside : binding ∈ bindings content := by simpa [named, has] using member
        exact isIdentifier_of_mem_bindings inside
  · rcases source?_eq_some readSource with ⟨source, _, specifier, -⟩
    rw [specifier, String.toList_ofList]
    intro c inside
    simpa using source.specifier_plain c inside

/-- What a declaration of a document provides can be read back. -/
theorem readsBack_of_provides {text : List Char} {declaration : ImportDeclaration}
    {name specifier : String} (member : declaration ∈ scanImports text)
    (provides : declaration.provides specifier ⟨name, none⟩ = true) : ReadsBack name specifier := by
  rw [ImportDeclaration.provides, Bool.and_eq_true, beq_iff_eq, List.any_eq_true] at provides
  rcases provides with ⟨rfl, binding, named, same⟩
  rw [Bool.and_eq_true, beq_iff_eq] at same
  obtain rfl : binding.name = name := same.1
  rcases exists_placed_of_mem member with ⟨_, _, _, _, _, next, placed⟩
  rcases read?_eq_some placed.read with ⟨_, _, -, -, -, -, ⟨_, -, clauses⟩ | ⟨-, clauses⟩⟩
  · exact clauses?_readsBack clauses named
  · exact clauses?_readsBack clauses named

end ImportDeclaration

/-! ## What a shape provides -/

namespace ImportShape

/-- Every name that a declaration of this shape introduces. -/
def localNames (shape : ImportShape) : List String :=
  shape.defaultName.toList ++ shape.namespaceName.toList ++
    (shape.bindings.getD []).map ImportBinding.localName

/-- Whether a declaration of this shape introduces exactly the given binding. -/
def provides (shape : ImportShape) (specifier : String) (binding : ImportBinding) : Bool :=
  shape.specifier == specifier && (shape.bindings.getD []).any fun other =>
    other.name == binding.name && other.localName == binding.localName

/-- A shape that has a binding at the end of its braces provides it. -/
theorem provides_append (specifier : String) (typeOnly : Bool) (defaultName namespaceName : Option String)
    (bindings : List ImportBinding) (name : String) :
    (mk specifier typeOnly defaultName namespaceName (some (bindings ++ [⟨name, none⟩]))).provides
      specifier ⟨name, none⟩ = true := by
  simp [provides]

theorem contains_localNames_of_provides {shape : ImportShape} {specifier name : String}
    (provided : shape.provides specifier ⟨name, none⟩ = true) :
    shape.localNames.contains name = true := by
  rw [provides, Bool.and_eq_true, List.any_eq_true] at provided
  rcases provided with ⟨-, binding, member, same⟩
  rw [Bool.and_eq_true, beq_iff_eq, beq_iff_eq] at same
  have named : binding.localName = name := same.2
  rw [List.contains_iff_mem, localNames, List.mem_append]
  right
  exact List.mem_map.mpr ⟨binding, member, named⟩

end ImportShape

namespace ImportDeclaration

theorem localNames_eq_shape (declaration : ImportDeclaration) :
    declaration.localNames = declaration.shape.localNames := by
  simp [localNames, ImportShape.localNames, shape, named]

end ImportDeclaration

/-! ## An import that changes nothing -/

namespace ImportStyle

/-- An import finds the symbol imported from the given module already, and its edit leaves the document
as it is. -/
def IsNoOp (style : ImportStyle) (document : Path) (text : List Char) (symbol : ExportedSymbol)
    (specifier : String) : Prop :=
  ∃ edit, style.importSymbol document text symbol = .ok ⟨.alreadyImported, specifier, edit⟩ ∧
    edit.applied? text = some text

variable {style : ImportStyle} {document : Path} {text : List Char} {symbol : ExportedSymbol}
  {specifier : String}

/-- The edit that puts nothing behind a declaration leaves the document as it is. -/
theorem applied?_insert_nothing {declaration : ImportDeclaration}
    (member : declaration ∈ scanImports text) :
    (TextEdit.insert declaration.span.stop "").applied? text = some text := by
  rcases exists_end_of_mem member with ⟨front, rest, rfl, stop⟩
  rw [stop, TextEdit.applied?_insert]
  simp

theorem isNoOp_of_provides {declaration : ImportDeclaration}
    (resolved : resolveModule document symbol = .ok specifier)
    (found : (scanImports text).find? (·.localNames.contains symbol.name) = some declaration)
    (provides : declaration.provides specifier ⟨symbol.name, none⟩ = true) :
    style.IsNoOp document text symbol specifier := by
  exact ⟨_, importSymbol_of_provides resolved found provides,
    applied?_insert_nothing (List.mem_of_find?_eq_some found)⟩

/-- An import changes nothing only where the symbol can be read back. -/
theorem IsNoOp.readsBack (noOp : style.IsNoOp document text symbol specifier) :
    ReadsBack symbol.name specifier := by
  rcases noOp with ⟨edit, returned, -⟩
  rcases importSymbol_cases returned with ⟨-, ⟨declaration, found, provides, -⟩ | ⟨-, merged, -⟩ |
    ⟨-, inserted, -⟩⟩
  · exact readsBack_of_provides (List.mem_of_find?_eq_some found) provides
  · simp at merged
  · simp at inserted

/-- An import changes nothing in a document whose first declaration of the name provides it. -/
theorem isNoOp_of_shapes {earlier later : List ImportShape} {shape : ImportShape}
    (resolved : resolveModule document symbol = .ok specifier)
    (scan : (scanImports text).map ImportDeclaration.shape = earlier ++ shape :: later)
    (free : ∀ other ∈ earlier, other.localNames.contains symbol.name = false)
    (provides : shape.provides specifier ⟨symbol.name, none⟩ = true) :
    style.IsNoOp document text symbol specifier := by
  rcases List.map_eq_append_iff.mp scan with ⟨before, rest, split, rfl, tail⟩
  rcases List.map_eq_cons_iff.mp tail with ⟨declaration, behind, rfl, rfl, -⟩
  have found : (scanImports text).find? (·.localNames.contains symbol.name) = some declaration := by
    rw [List.find?_eq_some_iff_append]
    refine ⟨?_, before, behind, split, fun other member => ?_⟩
    · rw [localNames_eq_shape]
      exact ImportShape.contains_localNames_of_provides provides
    · have unbound := free other.shape (List.mem_map.mpr ⟨other, member, rfl⟩)
      rw [localNames_eq_shape, unbound]
      rfl
  exact isNoOp_of_provides resolved found provides

theorem not_contains_of_find?_eq_none {name : String}
    (notFound : (scanImports text).find? (·.localNames.contains name) = none) :
    ∀ shape ∈ (scanImports text).map ImportDeclaration.shape,
      shape.localNames.contains name = false := by
  intro shape member
  rcases List.mem_map.mp member with ⟨declaration, inside, rfl⟩
  rw [← localNames_eq_shape]
  exact eq_false_of_ne_true (List.find?_eq_none.mp notFound declaration inside)

end ImportStyle

/-! ## Edits of a declaration -/

namespace ImportDeclaration

variable {text before lead chars behind : List Char} {earlier : List ImportShape}
  {declaration : ImportDeclaration} {next : Cursor}

/-- The parts of a document around an edit inside a declaration. -/
theorem Placed.exists_parts {edit : TextEdit} {shape : ImportShape}
    (placed : Placed text before lead chars behind earlier declaration next)
    (amends : Amends ⟨byteLength (before ++ lead), chars ++ behind⟩ next edit shape) :
    ∃ front hole back, front ≠ [] ∧ chars = importWord ++ (front ++ (hole ++ back)) ∧
      edit = ⟨byteLength (before ++ (lead ++ (importWord ++ front))),
        byteLength (before ++ (lead ++ (importWord ++ front))) + byteLength hole, edit.newText⟩ ∧
      IsStatement (importWord ++ (front ++ (edit.newText.toList ++ back))) shape := by
  rcases amends.exists_parts placed.spans placed.isStatement with
    ⟨front, hole, back, filled, shape, starts, stops, statement⟩
  refine ⟨front, hole, back, filled, shape, ?_, statement⟩
  have start : edit.start = byteLength (before ++ (lead ++ (importWord ++ front))) := by
    rw [starts, ← byteLength_append, List.append_assoc]
  rw [← start, ← stops]

theorem Placed.exists_applied {edit : TextEdit} {shape : ImportShape}
    (placed : Placed text before lead chars behind earlier declaration next)
    (amends : Amends ⟨byteLength (before ++ lead), chars ++ behind⟩ next edit shape) :
    ∃ after, edit.applied? text = some after := by
  rcases placed.exists_parts amends with ⟨front, hole, back, -, rfl, position, -⟩
  have whole : text = (before ++ (lead ++ (importWord ++ front))) ++ hole ++ (back ++ behind) := by
    rw [placed.reaches.text_eq]
    simp
  rw [position, whole]
  exact ⟨_, TextEdit.applied?_append _ _ _ _⟩

/-- When nothing in front of an edit inside a declaration is open, the scan finds the changed declaration
behind the earlier ones. -/
theorem Placed.amend {edit : TextEdit} {shape : ImportShape}
    (placed : Placed text before lead chars behind earlier declaration next)
    (amends : Amends ⟨byteLength (before ++ lead), chars ++ behind⟩ next edit shape)
    (nothingOpen : NothingOpen text edit.start) :
    ∃ after later, edit.applied? text = some after ∧
      (scanImports after).map ImportDeclaration.shape = earlier ++ shape :: later := by
  rcases placed.exists_parts amends with ⟨front, hole, back, filled, rfl, position, statement⟩
  have reaches : Reaches text before
      ((lead ++ (importWord ++ front)) ++ (hole ++ (back ++ behind))) earlier := by
    simpa using placed.reaches
  have whole : text = (before ++ (lead ++ (importWord ++ front))) ++ hole ++ (back ++ behind) := by
    rw [reaches.text_eq]
    simp
  have stays : StaysUnread before ((lead ++ (importWord ++ front)) ++ (hole ++ (back ++ behind)))
      ((lead ++ (importWord ++ front)) ++ (edit.newText.toList ++ (back ++ behind))) := by
    apply NothingOpen.staysUnread
    · rw [position, whole] at nothingOpen
      simpa using nothingOpen
    · exact wordsStand_of_word filled
  have scan := reaches.scanImports_append stays (stopsInline_congr (by cases lead <;> rfl))
  rcases statement.scanFrom placed.led placed.spans.stops (byteLength before) with
    ⟨again, scanBehind, shaped⟩
  have place : (lead ++ (importWord ++ front)) ++ (edit.newText.toList ++ (back ++ behind)) =
      lead ++ (importWord ++ (front ++ (edit.newText.toList ++ back)) ++ behind) := by simp
  rw [place, scanBehind, List.map_cons, shaped] at scan
  refine ⟨_, _, ?_, scan⟩
  rw [position, whole, TextEdit.applied?_append]
  simp

theorem exists_default_end {start next : Cursor} {binding : DefaultBinding}
    (read : read? start = some (declaration, next)) (plain : declaration.typeOnly = false)
    (has : declaration.defaultBinding = some binding) :
    ∃ front rest, start.rest = front ++ rest ∧ binding.stop = start.offset + byteLength front := by
  rcases read?_eq_some_of_plain read plain with ⟨gap, head, passes, -, -, -, -, clauses⟩
  rcases clauses?_eq_some_iff.mp clauses with ⟨_, _, _, readDefault, -⟩
  rw [has] at readDefault
  rcases defaultBinding?_eq_some readDefault with ⟨name, middle, -, passesName, -, rfl, -⟩
  have all := passes.trans passesName
  exact ⟨_, middle.rest, all.rest, all.offset⟩

end ImportDeclaration

/-- The edit of `merge?` can be made, whatever is to be added. -/
theorem merge?_applied {text : List Char} {specifier rendered : String} {edit : TextEdit}
    (found : merge? ((scanImports text).filter fun other =>
      other.specifier == specifier && !other.typeOnly) rendered = some edit) :
    ∃ after, edit.applied? text = some after := by
  rcases merge?_eq_some found with ⟨earlier, declaration, later, scan, isOf, changes⟩
  have plain : declaration.typeOnly = false := by
    rw [shape_isOf, Bool.and_eq_true] at isOf
    simpa using isOf.2
  rcases exists_placed_of_scan scan with ⟨before, lead, chars, behind, next, placed, -⟩
  rcases changes with ⟨list, has, rfl, -⟩ | ⟨-, binding, has, -, rfl, -⟩
  · -- The place of the edit is that of any other binding.
    have letter : IsIdentifier "a".toList := ⟨⟨'a', rfl, by decide⟩, List.all_eq_true.mp rfl⟩
    rcases placed.exists_applied (amends_braces placed.read plain has letter) with ⟨after, applied⟩
    have same := list.add_place rendered "a"
    have made := TextEdit.applied?_isSome_congr same.1 same.2 text
    rw [applied] at made
    exact Option.isSome_iff_exists.mp made
  · rcases exists_default_end placed.read plain has with ⟨front, rest, shape, stop⟩
    have whole : text = ((before ++ lead) ++ front) ++ rest := by
      simp only at shape
      rw [placed.reaches.text_eq, List.append_assoc, List.append_assoc, ← shape]
    simp only [← byteLength_append] at stop
    rw [stop, whole]
    exact ⟨_, TextEdit.applied?_insert _ _ _⟩

/-- A merged binding that can be read back is found in its declaration, behind the earlier ones. -/
theorem merge?_scan {text : List Char} {name specifier : String} {edit : TextEdit}
    (identifier : IsIdentifier name.toList)
    (found : merge? ((scanImports text).filter fun other =>
      other.specifier == specifier && !other.typeOnly) name = some edit)
    (noComma : ¬CommaAt text edit.start) (nothingOpen : NothingOpen text edit.start) :
    ∃ earlier declaration others after later, scanImports text = earlier ++ declaration :: others ∧
      declaration.specifier = specifier ∧ edit.applied? text = some after ∧
      (scanImports after).map ImportDeclaration.shape =
        earlier.map ImportDeclaration.shape ++
          declaration.shape.withBinding ⟨name, none⟩ :: later := by
  rcases merge?_eq_some found with ⟨earlier, declaration, others, scan, isOf, changes⟩
  rw [shape_isOf, Bool.and_eq_true, beq_iff_eq] at isOf
  have plain : declaration.typeOnly = false := by simpa using isOf.2
  rcases exists_placed_of_scan scan with ⟨before, lead, chars, behind, next, placed, -⟩
  have amends : Amends ⟨byteLength (before ++ lead), chars ++ behind⟩ next edit
      (declaration.shape.withBinding ⟨name, none⟩) := by
    rcases changes with ⟨list, has, rfl, -⟩ | ⟨-, binding, has, only, rfl, -⟩
    · exact amends_braces placed.read plain has identifier
    · apply amends_default placed.read plain has only _ identifier
      intro front rest shape stop comma
      apply noComma
      refine ⟨((before ++ lead) ++ front, rest), ?_, comma⟩
      have whole : text = ((before ++ lead) ++ front) ++ rest := by
        simp only at shape
        rw [placed.reaches.text_eq, List.append_assoc, List.append_assoc, ← shape]
      simp only [← byteLength_append] at stop
      rw [TextEdit.insert, stop, whole]
      exact splitAtByte?_append _ _
  rcases placed.amend amends nothingOpen with ⟨after, later, applied, scanAfter⟩
  exact ⟨earlier, declaration, others, after, later, scan, isOf.1, applied, scanAfter⟩

/-! ## New statements at their place -/

/-- A new statement goes to a line of its own, behind all declarations that the scan finds. -/
theorem exists_insertStatement (text : List Char) (statement : String) :
    ∃ (front rest : List Char) (lead gap : String),
      insertStatement text (scanImports text) statement =
        .insert (byteLength front) (lead ++ statement ++ gap) ∧
      (lead = "" ∧ startsLine front = true ∨ lead = "\n") ∧
      Reaches text front rest ((scanImports text).map ImportDeclaration.shape) := by
  rcases List.eq_nil_or_concat (scanImports text) with empty | ⟨earlier, last, found⟩
  · have cut := (splitHeader_spec text).1
    rcases insertStatement_nil text statement with ⟨lead, gap, edit, led, -⟩
    refine ⟨(splitHeader text).1, (splitHeader text).2, lead, gap, empty ▸ edit, ?_, ?_⟩
    · rcases led with ⟨rfl, atLine⟩ | rfl
      · left
        refine ⟨rfl, ?_⟩
        rw [startsLine]
        rcases atLine with first | feed
        · rw [first]
          rfl
        · rw [feed]
          rfl
      · exact .inr rfl
    · have reaches : Reaches text [] ((splitHeader text).1 ++ (splitHeader text).2) [] :=
        cut ▸ Reaches.start
      have nothing : scanFrom 0 (startsLine []) (byteLength [])
          ((splitHeader text).1 ++ (splitHeader text).2) = [] := by
        rw [← cut]
        exact empty
      rw [empty]
      exact reaches.gaps nothing
  · rw [List.concat_eq_append] at found
    rcases exists_placed_of_scan found with ⟨before, lead, chars, behind, next, placed, nothing⟩
    rcases placed.exists_end with ⟨gap, rest, rfl, stop⟩
    refine ⟨before ++ lead ++ chars ++ gap, rest, "\n", "", ?_, .inr rfl, ?_⟩
    · simp [found, insertStatement, stop]
    · have reaches := placed.reaches.statement placed.led placed.isStatement placed.spans.stops
      rw [← startsLine_statement placed.isStatement] at nothing
      rw [found, List.map_append]
      exact reaches.gaps nothing

theorem insertStatement_applied (text : List Char) (statement : String) :
    ∃ after, (insertStatement text (scanImports text) statement).applied? text = some after := by
  rcases exists_insertStatement text statement with ⟨front, rest, lead, gap, edit, -, reaches⟩
  rw [edit, reaches.text_eq]
  exact ⟨_, TextEdit.applied?_insert _ _ _⟩

/-- A new statement that can be read back is found behind all other declarations. -/
theorem insertStatement_scan {style : ImportStyle} {text : List Char} {name specifier : String}
    (readsBack : ReadsBack name specifier)
    (nothingOpen : NothingOpen text (insertStatement text (scanImports text)
      (style.statement [⟨name, none⟩] specifier)).start) :
    ∃ after later, (insertStatement text (scanImports text)
        (style.statement [⟨name, none⟩] specifier)).applied? text = some after ∧
      (scanImports after).map ImportDeclaration.shape =
        (scanImports text).map ImportDeclaration.shape ++ newShape name specifier :: later := by
  rcases exists_insertStatement text (style.statement [⟨name, none⟩] specifier) with
    ⟨front, rest, lead, gap, edit, line, reaches⟩
  have plain : ∀ c ∈ specifier.toList, (!isQuote c && c != '\n') = true := by
    intro c member
    have kept := readsBack.plain c member
    simp [kept]
  rcases style.exists_isStatement_append readsBack.identifier plain (gap.toList ++ rest) with
    ⟨chars, behind, shape, isStatement, stops, -⟩
  have led : Lead true [] := .line rfl (by simp)
  -- The statement begins a line, which is there already or comes with the edit.
  have scanLine : ∃ later, (scanFrom 0 (startsLine front) (byteLength front)
      (lead.toList ++ (chars ++ behind))).map ImportDeclaration.shape =
        newShape name specifier :: later := by
    rcases line with ⟨rfl, atLine⟩ | rfl
    · rcases isStatement.scanFrom led stops (byteLength front) with ⟨declaration, scan, shaped⟩
      rw [List.nil_append] at scan
      rw [atLine, String.toList_empty, List.nil_append, scan, List.map_cons, shaped]
      exact ⟨_, rfl⟩
    · rcases isStatement.scanFrom led stops (byteLength front + '\n'.utf8Size) with
        ⟨declaration, scan, shaped⟩
      have feed : "\n".toList ++ (chars ++ behind) = '\n' :: (chars ++ behind) := rfl
      rw [List.nil_append] at scan
      rw [feed, scanFrom_gap (not_anchored_feed _ _), beq_self_eq_true, scan, List.map_cons, shaped]
      exact ⟨_, rfl⟩
  have stays : StaysUnread front ([] ++ rest) ([] ++ (lead.toList ++ (chars ++ behind))) := by
    apply NothingOpen.staysUnread
    · rw [edit, reaches.text_eq] at nothingOpen
      simpa [TextEdit.insert] using nothingOpen
    · apply wordsStand_of_feed
      rcases line with ⟨-, atLine⟩ | rfl
      · exact .inl atLine
      · exact .inr rfl
  have stopsLine : StopsInline (lead.toList ++ (chars ++ behind)) := by
    rcases line with ⟨rfl, -⟩ | rfl
    · exact (isStatement.beginsImport behind).stopsInline
    · rintro c ⟨⟩
      decide
  rcases scanLine with ⟨later, scanLine⟩
  have scan := reaches.scanImports_append stays fun _ => stopsLine
  rw [List.nil_append, scanLine] at scan
  refine ⟨_, later, ?_, scan⟩
  rw [edit, reaches.text_eq, TextEdit.applied?_insert]
  simp [← shape]

/-! ## The second import -/

/-- Nothing in front of an edit can take it in, and no comma behind a default binding stands in its
way. -/
structure Settled (text : List Char) (edit : ImportEdit) : Prop where
  nothingOpen : NothingOpen text edit.edit.start
  noComma : edit.effect = .merged → ¬CommaAt text edit.edit.start

/-- An import that succeeds can be made in the document. A second one finds the symbol there and changes
nothing only when name and specifier can be read back; and then it does so where the first edit is
settled in the document. -/
theorem importSymbol_again {style : ImportStyle} {document : Path} {text : List Char}
    {symbol : ExportedSymbol} {edit : ImportEdit}
    (returned : style.importSymbol document text symbol = .ok edit) :
    ∃ after, edit.edit.applied? text = some after ∧
      (style.IsNoOp document after symbol edit.specifier →
        ReadsBack symbol.name edit.specifier) ∧
      (ReadsBack symbol.name edit.specifier →
        edit.effect = .alreadyImported ∨ Settled text edit →
        style.IsNoOp document after symbol edit.specifier) := by
  rcases ImportStyle.importSymbol_cases returned with
    ⟨resolved, ⟨declaration, found, provides, -, edit_eq⟩ | ⟨notFound, effect, merged⟩ |
      ⟨notFound, effect, -, edit_eq⟩⟩
  · refine ⟨text, ?_, ImportStyle.IsNoOp.readsBack, fun _ _ => ?_⟩
    · rw [edit_eq]
      exact ImportStyle.applied?_insert_nothing (List.mem_of_find?_eq_some found)
    · exact ImportStyle.isNoOp_of_provides resolved found provides
  · rcases merge?_applied merged with ⟨after, applied⟩
    refine ⟨after, applied, ImportStyle.IsNoOp.readsBack, fun readsBack settled => ?_⟩
    have settled : Settled text edit := by simpa [effect] using settled
    rcases merge?_scan readsBack.identifier merged (settled.noComma effect) settled.nothingOpen with
      ⟨earlier, declaration, others, again, later, scan, ofModule, appliedAgain, shapes⟩
    obtain rfl : after = again := Option.some.inj (applied.symm.trans appliedAgain)
    refine ImportStyle.isNoOp_of_shapes resolved shapes (fun other member => ?_) ?_
    · apply ImportStyle.not_contains_of_find?_eq_none notFound
      rw [scan, List.map_append]
      exact List.mem_append_left _ member
    · rw [← ofModule]
      exact ImportShape.provides_append _ _ _ _ _ _
  · rcases insertStatement_applied text (style.statement [⟨symbol.name, none⟩] edit.specifier) with
      ⟨after, applied⟩
    refine ⟨after, edit_eq ▸ applied, ImportStyle.IsNoOp.readsBack, fun readsBack settled => ?_⟩
    have settled : Settled text edit := by simpa [effect] using settled
    have nothingOpen := settled.nothingOpen
    rw [edit_eq] at nothingOpen
    rcases insertStatement_scan readsBack nothingOpen with ⟨again, later, appliedAgain, shapes⟩
    obtain rfl : after = again := Option.some.inj (applied.symm.trans appliedAgain)
    refine ImportStyle.isNoOp_of_shapes resolved shapes
      (ImportStyle.not_contains_of_find?_eq_none notFound) ?_
    exact ImportShape.provides_append _ _ _ _ [] _

/-- A binding joins a declaration behind one that the scanner does not read. -/
theorem importSymbol_again_behind_require :
    ∃ after, (TextEdit.insert 37 ", B").applied?
        "import fs = require('fs');\nimport \x7b A \x7d from 'm';\n".toList = some after ∧
      ImportStyle.standard.IsNoOp ⟨"b.ts"⟩ after ⟨"B", .variable, ⟨"a.ts"⟩, some "m"⟩ "m" := by
  have returned : ImportStyle.standard.importSymbol ⟨"b.ts"⟩
      "import fs = require('fs');\nimport \x7b A \x7d from 'm';\n".toList
      ⟨"B", .variable, ⟨"a.ts"⟩, some "m"⟩ = .ok ⟨.merged, "m", .insert 37 ", B"⟩ := rfl
  have nothingOpen : NothingOpen
      ("import fs = require('fs');\nimport \x7b A".toList ++ " \x7d from 'm';\n".toList) 37 := by
    apply nothingOpen_of_words
    intro count inside part found _ unread
    have start : ∀ count ∈ List.range 37,
        (dropPrefix? importWord
          ("import fs = require('fs');\nimport \x7b A".toList.drop count)).isSome = true →
        count = 0 ∨ count = 27 := by
      decide +kernel
    rcases start count inside (Option.isSome_iff_exists.mpr ⟨part, found⟩) with rfl | rfl
    · obtain rfl := Option.some.inj found
      rintro ⟨more, declaration, next, read, -⟩
      have unreadable : some (declaration, next) = none := read.symm.trans rfl
      simp at unreadable
    · obtain rfl := Option.some.inj found
      exact absurd (congrArg Option.isSome unread) (by decide +kernel)
  rcases importSymbol_again returned with ⟨after, applied, -, noOp⟩
  refine ⟨after, applied, noOp ?_ (.inr ⟨nothingOpen, fun _ => ?_⟩)⟩
  · exact ⟨⟨⟨'B', rfl, by decide⟩, List.all_eq_true.mp rfl⟩, by simp [isQuote]⟩
  · decide +kernel

/-- The scanner does not take `Ünit` for a name, so that a second import adds it once more. -/
theorem not_isNoOp_again_of_accented :
    ImportStyle.standard.importSymbol ⟨"src/x.ts"⟩ [] ⟨"Ünit", .classLike, ⟨"src/m.ts"⟩, none⟩ =
        .ok ⟨.inserted, "./m", .insert 0 "import \x7b Ünit \x7d from \"./m\";\n"⟩ ∧
      (TextEdit.insert 0 "import \x7b Ünit \x7d from \"./m\";\n").applied? [] =
        some "import \x7b Ünit \x7d from \"./m\";\n".toList ∧
      ImportStyle.standard.importSymbol ⟨"src/x.ts"⟩ "import \x7b Ünit \x7d from \"./m\";\n".toList
          ⟨"Ünit", .classLike, ⟨"src/m.ts"⟩, none⟩ =
        .ok ⟨.merged, "./m", .insert 14 ", Ünit"⟩ ∧
      ¬ImportStyle.standard.IsNoOp ⟨"src/x.ts"⟩ "import \x7b Ünit \x7d from \"./m\";\n".toList
        ⟨"Ünit", .classLike, ⟨"src/m.ts"⟩, none⟩ "./m" := by
  refine ⟨by decide +kernel, by decide +kernel, by decide +kernel, ?_⟩
  intro noOp
  rcases noOp.readsBack.identifier.starts with ⟨c, head, starts⟩
  obtain rfl : 'Ü' = c := Option.some.inj head
  exact absurd starts (by decide)

end AutoImport
