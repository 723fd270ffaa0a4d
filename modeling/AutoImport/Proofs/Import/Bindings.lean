import AutoImport.Import.Resolve
import AutoImport.Proofs.Import.Clauses
import AutoImport.Proofs.Import.Comment

/-!
# Adding a binding between braces

The edit of `BraceList.add` leaves the bindings between the braces as they are and puts one more behind
them, whatever comments, commas and blanks stand there.
-/

namespace AutoImport

open Text

namespace ImportDeclaration

theorem IsIdentifier.not_mem {name : List Char} (identifier : IsIdentifier name) {c : Char}
    (other : isIdentifierPart c = false) : c ∉ name := by
  intro member
  simp [identifier.parts c member] at other

/-- No word with blanks behind it is read from an identifier. -/
theorem wordAndBlanks?_identifier {name : List Char} (identifier : IsIdentifier name)
    (word : List Char) (offset : Nat) : wordAndBlanks? word ⟨offset, name⟩ = none := by
  rw [Option.eq_none_iff_forall_ne_some]
  intro next read
  rcases wordAndBlanks?_eq_some_iff.mp read with ⟨run, filled, blank, passes, -⟩
  rcases List.exists_cons_of_ne_nil filled with ⟨c, more, rfl⟩
  have inside : c ∈ name := by
    have shape : name = word ++ c :: more ++ next.rest := passes.rest
    simp [shape]
  exact identifier.not_mem (not_isIdentifierPart_of_isBlank (blank c List.mem_cons_self)) inside

theorem binding?_identifier {name : List Char} (identifier : IsIdentifier name) :
    binding? name = some ⟨String.ofList name, none⟩ := by
  have read : identifier? ⟨0, name⟩ = some (String.ofList name, ⟨0 + byteLength name, []⟩) := by
    have noMore : ∀ c ∈ ([] : List Char).head?, isIdentifierPart c = false := by simp
    have all := identifier?_append identifier noMore 0
    rwa [List.append_nil] at all
  simp [binding?, wordAndBlanks?_identifier identifier, plainBinding?, read]

/-- The bindings among the entries of a brace list. -/
def entryBindings (entries : List (List Char)) : List ImportBinding :=
  ((entries.map trim).filter (!·.isEmpty)).filterMap binding?

theorem entryBindings_append (left right : List (List Char)) :
    entryBindings (left ++ right) = entryBindings left ++ entryBindings right := by
  simp [entryBindings]

theorem entryBindings_blank {blanks : List Char} (blank : ∀ c ∈ blanks, isBlank c = true) :
    entryBindings [blanks] = [] := by
  simp [entryBindings, trim_blank blank]

theorem entryBindings_identifier {lead name blanks : List Char} (identifier : IsIdentifier name)
    (blankLead : ∀ c ∈ lead, isBlank c = true) (blank : ∀ c ∈ blanks, isBlank c = true) :
    entryBindings [lead ++ name ++ blanks] = [⟨String.ofList name, none⟩] := by
  have ink : ∀ c ∈ name, isBlank c = false :=
    fun c member => not_isBlank_of_isIdentifierPart (identifier.parts c member)
  simp [entryBindings, trim_append_blank _ blank, trim_blank_append blankLead, trim_of_no_blank ink,
    identifier.ne_nil, binding?_identifier identifier]

theorem entryBindings_splitOn_append_blank (text : List Char) {blanks : List Char}
    (blank : ∀ c ∈ blanks, isBlank c = true) :
    entryBindings (splitOn ',' (text ++ blanks)) = entryBindings (splitOn ',' text) := by
  rw [entryBindings, trim_splitOn_append_blank text (by decide) blank]
  rfl

theorem bindings_eq_entryBindings (content : List Char) :
    bindings content = entryBindings (splitOn ',' (blankComments content)) :=
  rfl

theorem not_mem_of_blank {c : Char} (ink : isBlank c = false) {blanks : List Char}
    (blank : ∀ c ∈ blanks, isBlank c = true) : c ∉ blanks := by
  intro member
  simp [blank c member] at ink

theorem bindings_of_blank {content blanks : List Char} (blanked : blankComments content = blanks)
    (blank : ∀ c ∈ blanks, isBlank c = true) : bindings content = [] := by
  rw [bindings_eq_entryBindings, blanked, splitOn_of_not_mem (not_mem_of_blank (by decide) blank),
    entryBindings_blank blank]

section

variable {content blanks name : List Char} (identifier : IsIdentifier name)
  (blank : ∀ c ∈ blanks, isBlank c = true)

include identifier blank

theorem bindings_identifier (blanked : blankComments content = [' '] ++ name ++ blanks) :
    bindings content = [⟨String.ofList name, none⟩] := by
  have noComma : ',' ∉ [' '] ++ name ++ blanks := by
    have inName : ',' ∉ name := identifier.not_mem (by decide)
    have inBlanks : ',' ∉ blanks := not_mem_of_blank (by decide) blank
    simp [inName, inBlanks]
  rw [bindings_eq_entryBindings, blanked, splitOn_of_not_mem noComma,
    entryBindings_identifier identifier (List.all_eq_true.mp rfl) blank]

omit blank in
theorem bindings_spaced : bindings ([' '] ++ name ++ [' ']) = [⟨String.ofList name, none⟩] := by
  have blankSpace : ∀ c ∈ [' '], isBlank c = true := List.all_eq_true.mp rfl
  have noSlash : '/' ∉ [' '] ++ name ++ [' '] := by
    have inName : '/' ∉ name := identifier.not_mem (by decide)
    simp [inName]
  refine bindings_identifier identifier blankSpace ?_
  have all := blankCommentsFrom_code_append noSlash []
  simpa [blankComments, blankCommentsFrom] using all

/-- A comma and an identifier behind the last entry are one more binding. -/
theorem bindings_append_comma_identifier {new ink : List Char}
    (blanked : blankComments content = ink ++ blanks)
    (blankedNew : blankComments new = ink ++ (',' :: ([' '] ++ name) ++ blanks)) :
    bindings new = bindings content ++ [⟨String.ofList name, none⟩] := by
  have noComma : ',' ∉ [' '] ++ name ++ blanks := by
    have inName : ',' ∉ name := identifier.not_mem (by decide)
    have inBlanks : ',' ∉ blanks := not_mem_of_blank (by decide) blank
    simp [inName, inBlanks]
  rw [bindings_eq_entryBindings, bindings_eq_entryBindings, blanked, blankedNew, List.cons_append,
    splitOn_append_separator, entryBindings_append, entryBindings_splitOn_append_blank ink blank,
    splitOn_of_not_mem noComma, entryBindings_identifier identifier (List.all_eq_true.mp rfl) blank]

/-- An identifier and a comma behind a comma are one more binding. -/
theorem bindings_append_identifier_comma {new ink : List Char}
    (blanked : blankComments content = ink ++ [','] ++ blanks)
    (blankedNew : blankComments new = ink ++ [','] ++ ([' '] ++ name ++ [','] ++ blanks)) :
    bindings new = bindings content ++ [⟨String.ofList name, none⟩] := by
  have noComma : ',' ∉ [' '] ++ name := by
    have inName : ',' ∉ name := identifier.not_mem (by decide)
    simp [inName]
  have noCommaBlanks : ',' ∉ blanks := not_mem_of_blank (by decide) blank
  have one : entryBindings [[' '] ++ name ++ []] = [⟨String.ofList name, none⟩] :=
    entryBindings_identifier identifier (List.all_eq_true.mp rfl) (by simp)
  have old : ink ++ [','] ++ blanks = ink ++ ',' :: blanks := by simp
  have added : ink ++ [','] ++ ([' '] ++ name ++ [','] ++ blanks) =
      ink ++ ',' :: ([' '] ++ name ++ ',' :: blanks) := by simp
  rw [bindings_eq_entryBindings, bindings_eq_entryBindings, blanked, blankedNew, old, added,
    splitOn_append_separator, splitOn_append_separator, splitOn_append_separator,
    splitOn_of_not_mem noComma, splitOn_of_not_mem noCommaBlanks, entryBindings_append,
    entryBindings_append, entryBindings_append, entryBindings_blank blank, List.append_nil,
    List.append_nil]
  rw [List.append_nil] at one
  rw [one]

end

end ImportDeclaration

open ImportDeclaration

namespace BraceList

/-- What an edit does to the text between braces: one part goes, and a binding comes behind the
others. -/
structure Adds (start : Nat) (content : List Char) (edit : TextEdit) (binding : ImportBinding)
    (kept removed after : List Char) : Prop where
  text : content = kept ++ (removed ++ after)
  start : edit.start = start + byteLength kept
  stop : edit.stop = edit.start + byteLength removed
  closed : '}' ∉ edit.newText.toList
  bound : ImportDeclaration.bindings (kept ++ (edit.newText.toList ++ after)) =
    ImportDeclaration.bindings content ++ [binding]

theorem plain_of_identifier (lead : List Char) {name : List Char} (identifier : IsIdentifier name)
    (more : List Char) (plainLead : '*' ∉ lead ∧ '/' ∉ lead) (plainMore : '*' ∉ more ∧ '/' ∉ more) :
    Plain (lead ++ name ++ more) := by
  have noStar : '*' ∉ name := identifier.not_mem (by decide)
  have noSlash : '/' ∉ name := identifier.not_mem (by decide)
  refine ⟨?_, ?_, ?_⟩
  · simp [identifier.ne_nil]
  · simp [plainLead.1, plainMore.1, noStar]
  · simp [plainLead.2, plainMore.2, noSlash]

/-- Where a binding is added does not depend on the binding. -/
theorem add_place (braces : BraceList) (rendered other : String) :
    (braces.add rendered).start = (braces.add other).start ∧
      (braces.add rendered).stop = (braces.add other).stop := by
  simp only [add]
  split
  · exact ⟨rfl, rfl⟩
  · split <;> exact ⟨rfl, rfl⟩

section

variable (start : Nat) {content before after ink blanks : List Char} {name : String}

theorem adds_into_blank (identifier : IsIdentifier name.toList)
    (noInk : trimEnd (blankComments content) = [])
    (blank : ∀ c ∈ blankComments content, isBlank c = true) :
    Adds start content (add ⟨start, String.ofList content, ImportDeclaration.bindings content⟩ name)
      ⟨name, none⟩ [] content [] := by
  have edit : add ⟨start, String.ofList content, ImportDeclaration.bindings content⟩ name =
      ⟨start, start + byteLength content, " " ++ name ++ " "⟩ := by
    simp [add, noInk, span]
  have text : [] ++ ((" " ++ name ++ " ").toList ++ []) = [' '] ++ name.toList ++ [' '] := by simp
  have noClose : '}' ∉ name.toList := identifier.not_mem (by decide)
  refine ⟨by simp, ?_, ?_, ?_, ?_⟩ <;> rw [edit]
  · rfl
  · simp [noClose]
  · rw [bindings_of_blank rfl blank, text, bindings_spaced identifier]
    simp

variable (cut : CutsAt .code ink blanks before after)
  (inked : trimEnd (blankComments (before ++ after)) = ink)
  (shape : blankComments (before ++ after) = ink ++ blanks)
  (blank : ∀ c ∈ blanks, isBlank c = true)

include cut inked shape blank

theorem adds_behind_comma (identifier : IsIdentifier name.toList) {front : List Char}
    (comma : ink = front ++ [',']) :
    Adds start (before ++ after)
      (add ⟨start, String.ofList (before ++ after), ImportDeclaration.bindings (before ++ after)⟩ name)
      ⟨name, none⟩ before [] after := by
  subst comma
  have edit : add ⟨start, String.ofList (before ++ after),
      ImportDeclaration.bindings (before ++ after)⟩ name =
      .insert (start + byteLength before) (" " ++ name ++ ",") := by
    simp [add, inked, cut.length]
  have noClose : '}' ∉ name.toList := identifier.not_mem (by decide)
  have plain := plain_of_identifier [' '] identifier [','] (by simp) (by simp)
  have text : (" " ++ name ++ ",").toList = [' '] ++ name.toList ++ [','] := by simp
  refine ⟨by simp, ?_, ?_, ?_, ?_⟩ <;> rw [edit]
  · rfl
  · rfl
  · simp [TextEdit.insert, noClose]
  · rw [TextEdit.insert, text,
      bindings_append_identifier_comma identifier blank shape
        (by simpa [blankComments] using cut.insert _ plain)]
    simp

theorem adds_behind_binding (identifier : IsIdentifier name.toList) {front : List Char} {last : Char}
    (endsIn : ink = front ++ [last]) (noComma : last ≠ ',') :
    Adds start (before ++ after)
      (add ⟨start, String.ofList (before ++ after), ImportDeclaration.bindings (before ++ after)⟩ name)
      ⟨name, none⟩ before [] after := by
  have edit : add ⟨start, String.ofList (before ++ after),
      ImportDeclaration.bindings (before ++ after)⟩ name =
      .insert (start + byteLength before) (", " ++ name) := by
    simp [add, inked, endsIn, cut.length, noComma]
  have noClose : '}' ∉ name.toList := identifier.not_mem (by decide)
  have plain := plain_of_identifier [',', ' '] identifier [] (by simp) (by simp)
  have text : (", " ++ name).toList = [',', ' '] ++ name.toList ++ [] := by simp
  refine ⟨by simp, ?_, ?_, ?_, ?_⟩ <;> rw [edit]
  · rfl
  · rfl
  · simp [TextEdit.insert, noClose]
  · rw [TextEdit.insert, text,
      bindings_append_comma_identifier identifier blank shape
        (by simpa [blankComments] using cut.insert _ plain)]
    simp

end

/-- One more binding is between the braces once the edit is made. -/
theorem add_adds (start : Nat) (content : List Char) {name : String}
    (identifier : IsIdentifier name.toList) :
    ∃ kept removed after, Adds start content
      (add ⟨start, String.ofList content, ImportDeclaration.bindings content⟩ name) ⟨name, none⟩
      kept removed after := by
  obtain ⟨blanks, shape, blank, noInk | ⟨front, last, inked, notBlank⟩⟩ :=
    trimEnd_append_eq (blankComments content)
  · rw [noInk, List.nil_append] at shape
    exact ⟨[], content, [], adds_into_blank start identifier noInk (shape ▸ blank)⟩
  · obtain ⟨before, after, rfl, cut⟩ := exists_cutsAt shape ⟨front, last, inked, notBlank⟩ blank
    refine ⟨before, [], after, ?_⟩
    by_cases comma : last = ','
    · exact adds_behind_comma start cut rfl shape blank identifier (comma ▸ inked)
    · exact adds_behind_binding start cut rfl shape blank identifier inked comma

end BraceList

end AutoImport
