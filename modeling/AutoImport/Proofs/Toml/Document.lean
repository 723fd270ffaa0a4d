import AutoImport.Proofs.Toml.Quoted
import AutoImport.Toml.Document

/-!
# Documents that are read back

A document of sections, each a header with settings on lines of their own, is read as the table of these
sections. What is needed of a value is only that it is read back in front of the end of its line.
-/

namespace AutoImport.Toml

open Text

/-! ## Names -/

/-- A name that stands without quotes. -/
structure IsBareName (name : String) : Prop where
  nonempty : name.toList ≠ []
  parts : ∀ c ∈ name.toList, isNamePart c = true

instance (name : String) : Decidable (IsBareName name) :=
  decidable_of_iff (name.toList ≠ [] ∧ name.toList.all isNamePart = true)
    ⟨fun ⟨nonempty, parts⟩ => ⟨nonempty, List.all_eq_true.mp parts⟩,
      fun ⟨nonempty, parts⟩ => ⟨nonempty, List.all_eq_true.mpr parts⟩⟩

theorem readShortString?_eq_none {text : List Char} (plain : ∀ c ∈ text.head?, isQuote c = false) :
    readShortString? text = none := by
  unfold readShortString?
  split
  · exact absurd (plain '"' rfl) (by decide)
  · exact absurd (plain '\'' rfl) (by decide)
  · rfl

theorem readString?_eq_none {text : List Char} (plain : ∀ c ∈ text.head?, isQuote c = false) :
    readString? text = none := by
  unfold readString?
  split
  · exact absurd (plain '"' rfl) (by decide)
  · exact absurd (plain '\'' rfl) (by decide)
  · exact readShortString?_eq_none plain

theorem skipInline_of_stop {text : List Char} (stop : ∀ c ∈ text.head?, isInlineBlank c = false) :
    skipInline text = text := by
  cases text with
  | nil => rfl
  | cons c text => exact List.dropWhile_cons_of_neg (by simp [stop c rfl])

section Names

variable {name : String} (bare : IsBareName name)
include bare

theorem IsBareName.exists_cons : ∃ c more, name.toList = c :: more ∧ isNamePart c = true := by
  obtain ⟨c, more, shape⟩ := List.exists_cons_of_ne_nil bare.nonempty
  exact ⟨c, more, shape, bare.parts c (by rw [shape]; exact List.mem_cons_self)⟩

/-- What begins with a name begins with none of the marks of the language. -/
theorem IsBareName.ne_of_head {mark : Char} (other : isNamePart mark = false) {rest : List Char} :
    ∀ c ∈ (name.toList ++ rest).head?, c ≠ mark := by
  rcases bare.exists_cons with ⟨first, more, shape, part⟩
  rw [shape]
  rintro c ⟨⟩ rfl
  simp [part] at other

theorem readName?_append {rest : List Char} (stop : ∀ c ∈ rest.head?, isNamePart c = false) :
    readName? (name.toList ++ rest) = some (name, rest) := by
  have unquoted : readShortString? (name.toList ++ rest) = none := by
    refine readShortString?_eq_none fun c head => ?_
    simp [isQuote, bare.ne_of_head (by decide : isNamePart '"' = false) c head,
      bare.ne_of_head (by decide : isNamePart '\'' = false) c head]
  rw [readName?, unquoted]
  simp only [spanWhile, takeWhile_append_of_stop bare.parts stop, dropWhile_append_of_stop bare.parts stop]
  rcases bare.exists_cons with ⟨first, more, shape, -⟩
  rw [shape]
  simp only
  rw [← shape, String.ofList_toList]

theorem readKey?_append {rest : List Char} (stop : ∀ c ∈ rest.head?, isNamePart c = false)
    (noDot : (skipInline rest).head? ≠ some '.') :
    readKey? (name.toList ++ rest) = some ([], name, skipInline rest) := by
  have begins : skipInline (name.toList ++ rest) = name.toList ++ rest := by
    refine skipInline_of_stop fun c head => ?_
    simp [isInlineBlank, bare.ne_of_head (by decide : isNamePart ' ' = false) c head,
      bare.ne_of_head (by decide : isNamePart '\t' = false) c head]
  have names : readNames? maxDepth (name.toList ++ rest) = some ([name], skipInline rest) := by
    rw [maxDepth, readNames?, begins, readName?_append bare stop]
    simp only [Option.bind_eq_bind, Option.bind_some]
    split
    · rename_i dotted
      rw [dotted] at noDot
      exact absurd rfl noDot
    · rfl
  rw [readKey?, names]
  rfl

end Names

/-! ## Statements -/

/-- A text that is read as a value in front of the end of its line. Its line ends are line feeds. -/
structure ReadsAs (written : List Char) (value : Toml) : Prop where
  begins : ∃ c more, written = c :: more ∧ isInlineBlank c = false
  plain : '\r' ∉ written
  reads : ∀ rest, readValue? maxDepth (written ++ '\n' :: rest) = some (value, '\n' :: rest)

theorem afterLine?_feed (rest : List Char) : afterLine? ('\n' :: rest) = some rest := by
  rfl

theorem readStatement?_header {name : String} (bare : IsBareName name) (rest : List Char) :
    readStatement? (['['] ++ name.toList ++ [']', '\n'] ++ rest) = some (.header [] name, rest) := by
  have key : readKey? (name.toList ++ ']' :: '\n' :: rest) = some ([], name, ']' :: '\n' :: rest) :=
    readKey?_append bare (by rintro c ⟨⟩; decide) (by simp [skipInline, isInlineBlank])
  have header : readHeader? [']'] (name.toList ++ ']' :: '\n' :: rest) = some (([], name), rest) := by
    simp only [readHeader?, key, Option.bind_eq_bind, Option.bind_some, dropPrefix?, beq_self_eq_true,
      reduceIte, afterLine?_feed]
  have shape : ['['] ++ name.toList ++ [']', '\n'] ++ rest =
      '[' :: (name.toList ++ ']' :: '\n' :: rest) := by simp
  rw [shape, readStatement?]
  · rw [header]
    rfl
  · intro more same
    exact bare.ne_of_head (by decide : isNamePart '[' = false) '[' (by rw [same]; rfl) rfl

theorem readStatement?_setting {name : String} (bare : IsBareName name) {written : List Char}
    {value : Toml} (reads : ReadsAs written value) (rest : List Char) :
    readStatement? (name.toList ++ [' ', '=', ' '] ++ written ++ ['\n'] ++ rest) =
      some (.setting [] name value, rest) := by
  rcases reads.begins with ⟨first, more, begins, ink⟩
  have shape : name.toList ++ [' ', '=', ' '] ++ written ++ ['\n'] ++ rest =
      name.toList ++ ' ' :: '=' :: ' ' :: (written ++ '\n' :: rest) := by simp
  have key : readKey? (name.toList ++ ' ' :: '=' :: ' ' :: (written ++ '\n' :: rest)) =
      some ([], name, '=' :: ' ' :: (written ++ '\n' :: rest)) :=
    readKey?_append bare (by rintro c ⟨⟩; decide) (by simp [skipInline, isInlineBlank])
  have skipped : skipInline (' ' :: (written ++ '\n' :: rest)) = written ++ '\n' :: rest := by
    rw [skipInline, List.dropWhile_cons_of_pos (by decide), begins]
    exact skipInline_of_stop (by rintro c ⟨⟩; exact ink)
  have setting : readSetting? (readValue? maxDepth)
      (name.toList ++ ' ' :: '=' :: ' ' :: (written ++ '\n' :: rest)) =
        some (([], name, value), '\n' :: rest) := by
    rw [readSetting?, key]
    simp only [Option.bind_eq_bind, Option.bind_some, skipped, reads.reads]
    rfl
  have noHeader (more : List Char) :
      name.toList ++ ' ' :: '=' :: ' ' :: (written ++ '\n' :: rest) ≠ '[' :: more := by
    intro same
    exact bare.ne_of_head (by decide : isNamePart '[' = false) '[' (by rw [same]; rfl) rfl
  rw [shape, readStatement?.eq_3 _ (fun _ => noHeader _) noHeader, setting]
  rfl

/-- Statements that a text spells, one after the other. -/
inductive Spells : List Char → List Statement → Prop where
  | nil : Spells [] []
  | blank {text : List Char} {statements : List Statement} (later : Spells text statements) :
      Spells ('\n' :: text) statements
  | statement {c : Char} {chunk text : List Char} {statement : Statement} {statements : List Statement}
      (begins : c ∉ [' ', '\t', '\n', '#'])
      (reads : ∀ rest, readStatement? (c :: chunk ++ rest) = some (statement, rest))
      (later : Spells text statements) : Spells (c :: chunk ++ text) (statement :: statements)

theorem Spells.readStatements? {text : List Char} {statements : List Statement}
    (spells : Spells text statements) {fuel : Nat} (enough : text.length < fuel) :
    readStatements? fuel text = some statements := by
  induction spells generalizing fuel with
  | nil =>
      obtain ⟨fuel, rfl⟩ := Nat.exists_eq_succ_of_ne_zero (Nat.ne_of_gt enough)
      rfl
  | @blank text statements later ih =>
      obtain ⟨fuel, rfl⟩ := Nat.exists_eq_succ_of_ne_zero (Nat.ne_of_gt (Nat.zero_lt_of_lt enough))
      rw [← ih (Nat.lt_of_succ_lt enough)]
      rfl
  | @statement c chunk text statement statements begins reads later ih =>
      obtain ⟨fuel, rfl⟩ := Nat.exists_eq_succ_of_ne_zero (Nat.ne_of_gt (Nat.zero_lt_of_lt enough))
      simp only [List.mem_cons, List.not_mem_nil, or_false, not_or] at begins
      have starts : skipLines false (c :: chunk ++ text) = c :: chunk ++ text := by
        simp [skipLines, isInlineBlank, begins]
      have shorter : text.length < fuel := by
        simp only [List.length_append, List.length_cons] at enough
        omega
      rw [Toml.readStatements?, starts]
      refine Option.bind_eq_some_iff.mpr ⟨_, reads text, ?_⟩
      exact Option.bind_eq_some_iff.mpr ⟨_, ih shorter, rfl⟩

/-! ## Sections -/

/-- A setting with the text of its value. -/
structure WrittenSetting where
  name : String
  written : List Char
  value : Toml

namespace WrittenSetting

/-- The setting on a line. -/
def line (setting : WrittenSetting) : List Char :=
  setting.name.toList ++ [' ', '=', ' '] ++ setting.written ++ ['\n']

def entry (setting : WrittenSetting) : String × Toml :=
  (setting.name, setting.value)

def statement (setting : WrittenSetting) : Statement :=
  .setting [] setting.name setting.value

end WrittenSetting

/-- A section with the texts of its settings. -/
structure WrittenSection where
  name : String
  settings : List WrittenSetting

namespace WrittenSection

def chars (block : WrittenSection) : List Char :=
  ['['] ++ block.name.toList ++ [']', '\n'] ++ (block.settings.map WrittenSetting.line).flatten

def entry (block : WrittenSection) : String × Toml :=
  (block.name, .table .header (block.settings.map WrittenSetting.entry))

def statements (block : WrittenSection) : List Statement :=
  .header [] block.name :: block.settings.map WrittenSetting.statement

/-- A section of bare names, each once, with values that are read back. -/
structure IsReadable (block : WrittenSection) : Prop where
  bare : IsBareName block.name
  names : ∀ setting ∈ block.settings, IsBareName setting.name
  values : ∀ setting ∈ block.settings, ReadsAs setting.written setting.value
  distinct : (block.settings.map WrittenSetting.name).Nodup

end WrittenSection

theorem spells_settings {settings : List WrittenSetting}
    (names : ∀ setting ∈ settings, IsBareName setting.name)
    (values : ∀ setting ∈ settings, ReadsAs setting.written setting.value) {text : List Char}
    {statements : List Statement} (later : Spells text statements) :
    Spells ((settings.map WrittenSetting.line).flatten ++ text)
      (settings.map WrittenSetting.statement ++ statements) := by
  induction settings with
  | nil => exact later
  | cons setting settings ih =>
      rcases List.forall_mem_cons.mp names with ⟨bare, names⟩
      rcases List.forall_mem_cons.mp values with ⟨reads, values⟩
      rcases bare.exists_cons with ⟨c, more, shape, part⟩
      have whole : setting.line = c :: (more ++ [' ', '=', ' '] ++ setting.written ++ ['\n']) := by
        simp [WrittenSetting.line, shape]
      have begins : c ∉ [' ', '\t', '\n', '#'] := by
        intro member
        simp only [List.mem_cons, List.not_mem_nil, or_false] at member
        rcases member with rfl | rfl | rfl | rfl <;> exact absurd part (by decide)
      rw [List.map_cons, List.flatten_cons, List.append_assoc, whole]
      refine .statement begins (fun rest => ?_) (ih names values)
      rw [← whole]
      exact readStatement?_setting bare reads rest

theorem spells_section {block : WrittenSection} (readable : block.IsReadable) {text : List Char}
    {statements : List Statement} (later : Spells text statements) :
    Spells (block.chars ++ text) (block.statements ++ statements) := by
  have settings := spells_settings readable.names readable.values later
  rw [WrittenSection.chars, List.append_assoc]
  exact .statement (by decide) (readStatement?_header readable.bare) settings

theorem spells_document {sections : List WrittenSection}
    (readable : ∀ block ∈ sections, block.IsReadable) :
    Spells (joinWith ['\n'] (sections.map WrittenSection.chars))
      (sections.flatMap WrittenSection.statements) := by
  induction sections with
  | nil => exact .nil
  | cons first sections ih =>
      rcases List.forall_mem_cons.mp readable with ⟨here, others⟩
      cases sections with
      | nil => simpa [joinWith] using spells_section here .nil
      | cons next sections =>
          have later := spells_section here (Spells.blank (ih others))
          simpa [joinWith] using later

/-! ## Tables -/

section Entries

variable {done : List (String × Toml)} {name : String} (fresh : name ∉ done.map Prod.fst)
include fresh

theorem lookup_of_fresh : done.lookup name = none := by
  rw [List.lookup_eq_none_iff]
  intro entry member
  rw [bne_iff_ne]
  rintro rfl
  exact fresh (List.mem_map_of_mem member)

theorem lookup_append_of_fresh (value : Toml) : (done ++ [(name, value)]).lookup name = some value := by
  rw [List.lookup_append, lookup_of_fresh fresh]
  simp

theorem replaceEntry_append_of_fresh (value other : Toml) :
    replaceEntry name value (done ++ [(name, other)]) = done ++ [(name, value)] := by
  have kept : ∀ entry ∈ done, (if entry.1 == name then (name, value) else entry) = entry := by
    intro entry member
    have apart : (entry.1 == name) = false := by
      rw [beq_eq_false_iff_ne]
      rintro rfl
      exact fresh (List.mem_map_of_mem member)
    rw [apart]
    rfl
  rw [replaceEntry, List.map_append, List.map_congr_left kept, List.map_id']
  simp

theorem Draft.add?_header (current : List String) :
    Draft.add? ⟨.table .header done, current⟩ (.header [] name) =
      some ⟨.table .header (done ++ [(name, .table .header [])]), [name]⟩ := by
  simp [Draft.add?, within?, openTable?, lookup_of_fresh fresh, newTable]

theorem Draft.add?_setting {filled : List (String × Toml)} {key : String}
    (freshKey : key ∉ filled.map Prod.fst) (value : Toml) :
    Draft.add? ⟨.table .header (done ++ [(name, .table .header filled)]), [name]⟩
        (.setting [] key value) =
      some ⟨.table .header (done ++ [(name, .table .header (filled ++ [(key, value)]))]), [name]⟩ := by
  have inserted : insert? false key value (.table .header filled) =
      some (.table .header (filled ++ [(key, value)])) := by
    simp [insert?, lookup_of_fresh freshKey]
  simp only [Draft.add?, within?, set?, lookup_append_of_fresh fresh, TableOrigin.isOpen, List.isEmpty_nil,
    Bool.not_true, Bool.not_false, reduceIte, inserted, Option.map_some,
    replaceEntry_append_of_fresh fresh]

theorem foldlM_settings {settings : List WrittenSetting} {filled : List (String × Toml)}
    (distinct : (filled.map Prod.fst ++ settings.map WrittenSetting.name).Nodup) :
    (settings.map WrittenSetting.statement).foldlM Draft.add?
        ⟨.table .header (done ++ [(name, .table .header filled)]), [name]⟩ =
      some ⟨.table .header (done ++ [(name, .table .header (filled ++ settings.map WrittenSetting.entry))]),
        [name]⟩ := by
  induction settings generalizing filled with
  | nil => simp
  | cons setting settings ih =>
      have freshKey : setting.name ∉ filled.map Prod.fst := by
        intro member
        exact (List.nodup_append.mp distinct).2.2 _ member _ List.mem_cons_self rfl
      have rest := @ih (filled ++ [setting.entry]) (by simpa [WrittenSetting.entry] using distinct)
      rw [List.map_cons, List.foldlM_cons, WrittenSetting.statement, Draft.add?_setting fresh freshKey]
      simpa [WrittenSetting.entry] using rest

end Entries

theorem foldlM_sections {sections : List WrittenSection} {done : List (String × Toml)}
    {current : List String} (distinct : (done.map Prod.fst ++ sections.map WrittenSection.name).Nodup)
    (readable : ∀ block ∈ sections, block.IsReadable) :
    ∃ last, (sections.flatMap WrittenSection.statements).foldlM Draft.add?
        ⟨.table .header done, current⟩ =
      some ⟨.table .header (done ++ sections.map WrittenSection.entry), last⟩ := by
  induction sections generalizing done current with
  | nil => exact ⟨current, by simp⟩
  | cons block sections ih =>
      rcases List.forall_mem_cons.mp readable with ⟨here, others⟩
      have fresh : block.name ∉ done.map Prod.fst := by
        intro member
        exact (List.nodup_append.mp distinct).2.2 _ member _ List.mem_cons_self rfl
      rcases @ih (done ++ [block.entry]) [block.name]
        (by simpa [WrittenSection.entry] using distinct) others with ⟨last, rest⟩
      refine ⟨last, ?_⟩
      have settings := @foldlM_settings done block.name fresh block.settings [] (by simpa using here.distinct)
      rw [List.flatMap_cons, WrittenSection.statements, List.cons_append, List.foldlM_cons,
        Draft.add?_header fresh]
      simp only [Option.bind_eq_bind, Option.bind_some, List.foldlM_append, settings]
      simpa [WrittenSection.entry] using rest

/-! ## Documents -/

theorem unifyLineEnds_of_not_mem {text : List Char} (plain : '\r' ∉ text) : unifyLineEnds text = text := by
  induction text with
  | nil => rfl
  | cons c text ih =>
      simp only [List.mem_cons, not_or] at plain
      rw [unifyLineEnds.eq_3 c text fun _ same => absurd same (Ne.symm plain.1), ih plain.2]

/-- The document of some sections. -/
def documentOf (sections : List WrittenSection) : List Char :=
  joinWith ['\n'] (sections.map WrittenSection.chars)

theorem IsBareName.not_mem {name : String} (bare : IsBareName name) : '\r' ∉ name.toList :=
  fun member => absurd (bare.parts _ member) (by decide)

theorem WrittenSection.IsReadable.not_mem {block : WrittenSection} (readable : block.IsReadable) :
    '\r' ∉ block.chars := by
  have lines : ∀ setting ∈ block.settings, '\r' ∉ setting.line := by
    intro setting member
    simp [WrittenSetting.line, (readable.names setting member).not_mem,
      (readable.values setting member).plain]
  have together : '\r' ∉ (block.settings.map WrittenSetting.line).flatten := by
    simpa using lines
  simp [WrittenSection.chars, readable.bare.not_mem, together]

theorem not_mem_documentOf {sections : List WrittenSection}
    (readable : ∀ block ∈ sections, block.IsReadable) : '\r' ∉ documentOf sections := by
  rw [documentOf]
  induction sections with
  | nil => simp [joinWith]
  | cons first sections ih =>
      rcases List.forall_mem_cons.mp readable with ⟨here, others⟩
      cases sections with
      | nil => simpa [joinWith] using here.not_mem
      | cons next sections => simpa [joinWith, here.not_mem] using ih others

/-- A document of sections is read as their table. -/
theorem ofText?_documentOf {sections : List WrittenSection} (nonempty : sections ≠ [])
    (readable : ∀ block ∈ sections, block.IsReadable) (distinct : (sections.map WrittenSection.name).Nodup) :
    ofText? (documentOf sections) = some (.table .header (sections.map WrittenSection.entry)) := by
  have noMark : dropMark (documentOf sections) = documentOf sections := by
    obtain ⟨block, others, rfl⟩ := List.exists_cons_of_ne_nil nonempty
    obtain ⟨more, begins⟩ : ∃ more, documentOf (block :: others) = '[' :: more := by
      cases others <;> exact ⟨_, rfl⟩
    rw [begins]
    rfl
  have read := (spells_document readable).readStatements? (Nat.lt_succ_self _)
  rcases @foldlM_sections sections [] [] (by simpa using distinct) readable with ⟨last, filled⟩
  rw [ofText?, noMark, unifyLineEnds_of_not_mem (not_mem_documentOf readable), documentOf]
  rw [read, Option.bind_some, ofStatements?, Draft.start, emptyDocument, newTable, filled]
  rfl

end AutoImport.Toml
