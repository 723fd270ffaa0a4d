import AutoImport.Proofs.Import.Source

/-!
# Reading a declaration again

A declaration is read in the same way wherever it stands and whatever follows it, as long as its end
stays its end. The word `type` marks a declaration of types exactly when blanks and no comma follow it,
so that a change further on in a declaration does not make a mark of it.
-/

namespace AutoImport

open Text

/-- What an import declaration says, other than where it stands. -/
structure ImportShape where
  specifier : String
  typeOnly : Bool
  defaultName : Option String
  namespaceName : Option String
  /-- The bindings between the braces, if there are braces. -/
  bindings : Option (List ImportBinding)
  deriving DecidableEq, Repr

namespace ImportDeclaration

/-- What a declaration says. -/
def shape (declaration : ImportDeclaration) : ImportShape where
  specifier := declaration.specifier
  typeOnly := declaration.typeOnly
  defaultName := declaration.defaultBinding.map DefaultBinding.name
  namespaceName := declaration.namespaceBinding
  bindings := declaration.braces.map BraceList.bindings

/-- The clauses of a declaration are its default binding, its namespace, its braces and its source. -/
theorem clauses?_eq_some_iff {start : Nat} {typeOnly : Bool} {cursor next : Cursor}
    {declaration : ImportDeclaration} :
    clauses? start typeOnly cursor = some (declaration, next) ↔
      ∃ afterDefault afterNamespace afterBraces,
        defaultBinding? cursor = (declaration.defaultBinding, afterDefault) ∧
        namespaceBinding? afterDefault = some (declaration.namespaceBinding, afterNamespace) ∧
        braces? afterNamespace = some (declaration.braces, afterBraces) ∧
        source? afterBraces = some (declaration.specifier, next) ∧
        declaration.typeOnly = typeOnly ∧ declaration.span = ⟨start, next.offset⟩ := by
  constructor
  · intro found
    rw [clauses?] at found
    obtain ⟨defaultName, afterDefault, readDefault⟩ :
        ∃ name after, defaultBinding? cursor = (name, after) := ⟨_, _, rfl⟩
    simp only [readDefault] at found
    obtain ⟨⟨namespaceName, afterNamespace⟩, readNamespace, found⟩ :=
      Option.bind_eq_some_iff.mp found
    obtain ⟨⟨braces, afterBraces⟩, readBraces, found⟩ := Option.bind_eq_some_iff.mp found
    obtain ⟨⟨specifier, afterSpecifier⟩, readSpecifier, found⟩ := Option.bind_eq_some_iff.mp found
    simp only [Option.some.injEq, Prod.mk.injEq] at found
    obtain ⟨rfl, rfl⟩ := found
    refine ⟨afterDefault, afterNamespace, afterBraces, readDefault, readNamespace, readBraces, ?_,
      rfl, rfl⟩
    simp only [source?, readSpecifier, Option.map_some]
  · rintro ⟨afterDefault, afterNamespace, afterBraces, readDefault, readNamespace, readBraces,
      readSource, rfl, span⟩
    obtain ⟨⟨specifier, afterSpecifier⟩, readSpecifier, equal⟩ := Option.map_eq_some_iff.mp readSource
    simp only [Prod.mk.injEq] at equal
    obtain ⟨sameSpecifier, rfl⟩ := equal
    obtain ⟨declaredSpan, declaredSpecifier, declaredType, declaredDefault, declaredNamespace,
      declaredBraces⟩ := declaration
    simp only at span sameSpecifier readDefault readNamespace readBraces
    subst span sameSpecifier
    simp only [clauses?, readDefault, readNamespace, readBraces, readSpecifier, Option.bind_eq_bind,
      Option.bind_some]

/-- The clauses before the source are read together. -/
def heads? : Cursor → Option ((Option DefaultBinding × Option String × Option BraceList) × Cursor) :=
  Cursor.andThen (fun cursor => some (defaultBinding? cursor))
    (Cursor.andThen namespaceBinding? braces?)

theorem steady_heads :
    Cursor.Steady (Prod.map (Option.map DefaultBinding.name) (Prod.map id seenBraces)) heads? :=
  steady_defaultBinding.andThen (steady_namespaceBinding.andThen steady_braces)

theorem heads?_eq_some_iff {cursor next : Cursor} {defaultBinding : Option DefaultBinding}
    {namespaceName : Option String} {braces : Option BraceList} :
    heads? cursor = some ((defaultBinding, namespaceName, braces), next) ↔
      ∃ afterDefault afterNamespace, defaultBinding? cursor = (defaultBinding, afterDefault) ∧
        namespaceBinding? afterDefault = some (namespaceName, afterNamespace) ∧
        braces? afterNamespace = some (braces, next) := by
  constructor
  · intro found
    obtain ⟨afterDefault, readDefault, readMore⟩ := Cursor.andThen_eq_some_iff.mp found
    obtain ⟨afterNamespace, readNamespace, readBraces⟩ := Cursor.andThen_eq_some_iff.mp readMore
    exact ⟨afterDefault, afterNamespace, Option.some.inj readDefault, readNamespace, readBraces⟩
  · rintro ⟨afterDefault, afterNamespace, readDefault, readNamespace, readBraces⟩
    refine Cursor.andThen_eq_some_iff.mpr ⟨afterDefault, congrArg some readDefault, ?_⟩
    exact Cursor.andThen_eq_some_iff.mpr ⟨afterNamespace, readNamespace, readBraces⟩

theorem clauses?_eq_some_iff_heads? {start : Nat} {typeOnly : Bool} {cursor next : Cursor}
    {declaration : ImportDeclaration} :
    clauses? start typeOnly cursor = some (declaration, next) ↔
      ∃ middle, heads? cursor = some ((declaration.defaultBinding, declaration.namespaceBinding,
          declaration.braces), middle) ∧
        source? middle = some (declaration.specifier, next) ∧
        declaration.typeOnly = typeOnly ∧ declaration.span = ⟨start, next.offset⟩ := by
  rw [clauses?_eq_some_iff]
  constructor
  · rintro ⟨afterDefault, afterNamespace, afterBraces, readDefault, readNamespace, readBraces, rest⟩
    exact ⟨afterBraces,
      heads?_eq_some_iff.mpr ⟨afterDefault, afterNamespace, readDefault, readNamespace, readBraces⟩,
      rest⟩
  · rintro ⟨afterBraces, readHeads, rest⟩
    obtain ⟨afterDefault, afterNamespace, readDefault, readNamespace, readBraces⟩ :=
      heads?_eq_some_iff.mp readHeads
    exact ⟨afterDefault, afterNamespace, afterBraces, readDefault, readNamespace, readBraces, rest⟩

theorem clauses?_of_heads {start : Nat} {typeOnly : Bool} {cursor middle next : Cursor}
    {defaultBinding : Option DefaultBinding} {namespaceName : Option String}
    {braces : Option BraceList} {specifier : String}
    (readHeads : heads? cursor = some ((defaultBinding, namespaceName, braces), middle))
    (readSource : source? middle = some (specifier, next)) :
    clauses? start typeOnly cursor =
      some (⟨⟨start, next.offset⟩, specifier, typeOnly, defaultBinding, namespaceName, braces⟩, next) :=
  clauses?_eq_some_iff_heads?.mpr ⟨middle, readHeads, readSource, rfl, rfl⟩

theorem shape_eq_of_seen {declaration other : ImportDeclaration}
    (specifier : other.specifier = declaration.specifier)
    (typeOnly : other.typeOnly = declaration.typeOnly)
    (heads : Prod.map (Option.map DefaultBinding.name) (Prod.map id seenBraces)
        (other.defaultBinding, other.namespaceBinding, other.braces) =
      Prod.map (Option.map DefaultBinding.name) (Prod.map id seenBraces)
        (declaration.defaultBinding, declaration.namespaceBinding, declaration.braces)) :
    other.shape = declaration.shape := by
  simp only [Prod.map_apply, Prod.mk.injEq, id_eq] at heads
  obtain ⟨defaults, namespaces, braces⟩ := heads
  have bindings : other.braces.map BraceList.bindings = declaration.braces.map BraceList.bindings := by
    have := congrArg (Option.map Prod.snd) braces
    simpa [seenBraces, Function.comp_def] using this
  simp [shape, specifier, typeOnly, defaults, namespaces, bindings]

/-- A text is read as clauses that say `shape`, at any offset and before any text but a blank. -/
def ReadsAs (typeOnly : Bool) (chars : List Char) (shape : ImportShape) : Prop :=
  ∀ start offset rest, StopsInline rest →
    ∃ declaration, clauses? start typeOnly ⟨offset, chars ++ rest⟩ =
        some (declaration, (Cursor.mk (offset + byteLength chars) rest).skip [';']) ∧
      declaration.shape = shape

/-- Clauses are read again wherever their text stands. -/
theorem clauses?_again {start : Nat} {typeOnly : Bool} {cursor next : Cursor}
    {declaration : ImportDeclaration}
    (found : clauses? start typeOnly cursor = some (declaration, next)) :
    ∃ (front : List Char) (source : SourceText) (middle : Cursor),
      cursor.Passes (front ++ source.chars) middle ∧ StopsInline middle.rest ∧
      next = middle.skip [';'] ∧ ReadsAs typeOnly (front ++ source.chars) declaration.shape := by
  obtain ⟨afterHeads, readHeads, readSource, sameType, -⟩ := clauses?_eq_some_iff_heads?.mp found
  obtain ⟨front, passes, again⟩ := steady_heads _ _ _ readHeads
  obtain ⟨source, middle, name, passesSource, stops, ends⟩ := source?_eq_some readSource
  refine ⟨front, source, middle, passes.trans passesSource, stops, ends,
    fun start offset rest stopsRest => ?_⟩
  have sameHead : (source.chars ++ rest).head? = afterHeads.rest.head? := by
    rw [passesSource.rest]
    exact source.head?_append rest middle.rest
  obtain ⟨⟨defaultName, namespaceName, braces⟩, readAgain, seen⟩ := again offset _ sameHead
  have sourceAgain := source.source?_append stopsRest (offset + byteLength front)
  rw [Nat.add_assoc, ← byteLength_append] at sourceAgain
  rw [List.append_assoc]
  refine ⟨_, clauses?_of_heads readAgain sourceAgain, ?_⟩
  exact shape_eq_of_seen name.symm sameType.symm seen

/-- Braces and a source are read behind a default binding and a namespace. -/
theorem clauses?_of_braces {start offset : Nat} {typeOnly : Bool}
    {before content blanks rest : List Char} {source : SourceText} {afterDefault : Cursor}
    {defaultBinding : Option DefaultBinding} {namespaceName : Option String}
    (readDefault : defaultBinding?
        ⟨offset, before ++ ('{' :: content ++ '}' :: blanks ++ (source.chars ++ rest))⟩ =
      (defaultBinding, afterDefault))
    (readNamespace : namespaceBinding? afterDefault = some (namespaceName,
      ⟨offset + byteLength before, '{' :: content ++ '}' :: blanks ++ (source.chars ++ rest)⟩))
    (closed : '}' ∉ content) (blank : ∀ c ∈ blanks, isBlank c = true)
    (stop : ∀ c ∈ (source.chars ++ rest).head?, isBlank c = false) (stops : StopsInline rest) :
    ∃ declaration,
      clauses? start typeOnly
          ⟨offset, before ++ '{' :: content ++ '}' :: blanks ++ source.chars ++ rest⟩ =
        some (declaration, (Cursor.mk (offset +
          byteLength (before ++ '{' :: content ++ '}' :: blanks ++ source.chars)) rest).skip [';']) ∧
      declaration.shape = ⟨String.ofList source.specifier, typeOnly,
        defaultBinding.map DefaultBinding.name, namespaceName, some (bindings content)⟩ := by
  have readBraces := braces?_append closed blank stop (offset + byteLength before)
  have readHeads := heads?_eq_some_iff.mpr ⟨_, _, readDefault, readNamespace, readBraces⟩
  have readSource := source.source?_append stops
    (offset + byteLength before + byteLength ('{' :: content ++ '}' :: blanks))
  have length : offset + byteLength before + byteLength ('{' :: content ++ '}' :: blanks) +
      byteLength source.chars =
      offset + byteLength (before ++ '{' :: content ++ '}' :: blanks ++ source.chars) := by
    simp [byteLength_append, byteLength, Nat.add_assoc]
  have text : before ++ '{' :: content ++ '}' :: blanks ++ source.chars ++ rest =
      before ++ ('{' :: content ++ '}' :: blanks ++ (source.chars ++ rest)) := by simp
  rw [length] at readSource
  rw [text]
  exact ⟨_, clauses?_of_heads readHeads readSource, rfl⟩

/-- Braces are filled with anything that does not close them. -/
theorem clauses?_braces {start : Nat} {typeOnly : Bool} {cursor next : Cursor}
    {declaration : ImportDeclaration} {list : BraceList}
    (found : clauses? start typeOnly cursor = some (declaration, next))
    (has : declaration.braces = some list) :
    ∃ (before content after : List Char) (source : SourceText) (middle : Cursor),
      cursor.Passes (before ++ '{' :: content ++ '}' :: after ++ source.chars) middle ∧
      StopsInline middle.rest ∧ next = middle.skip [';'] ∧ '}' ∉ content ∧
      list = ⟨cursor.offset + byteLength before + 1, String.ofList content, bindings content⟩ ∧
      ∀ other, '}' ∉ other →
        ReadsAs typeOnly (before ++ '{' :: other ++ '}' :: after ++ source.chars)
          { declaration.shape with bindings := some (bindings other) } := by
  obtain ⟨afterDefault, afterNamespace, afterBraces, readDefault, readNamespace, readBraces,
    readSource, sameType, -⟩ := clauses?_eq_some_iff.mp found
  obtain ⟨before, passes, again⟩ := (steady_defaultBinding.andThen steady_namespaceBinding) cursor
    (declaration.defaultBinding, declaration.namespaceBinding) afterNamespace
    (Cursor.andThen_eq_some_iff.mpr ⟨afterDefault, congrArg some readDefault, readNamespace⟩)
  rw [has] at readBraces
  obtain ⟨content, after, inside, blank, stop, passesBraces, rfl⟩ := braces?_eq_some readBraces
  obtain ⟨source, middle, name, passesSource, stops, ends⟩ := source?_eq_some readSource
  refine ⟨before, content, after, source, middle, ?_, stops, ends, inside, ?_, ?_⟩
  · simpa using (passes.trans passesBraces).trans passesSource
  · rw [passes.offset]
  · intro other closed start offset rest stopsRest
    have stopSource : ∀ c ∈ (source.chars ++ rest).head?, isBlank c = false := by
      rw [source.head?_append rest middle.rest, ← passesSource.rest]
      exact stop
    have sameHead : ('{' :: other ++ '}' :: after ++ (source.chars ++ rest)).head? =
        afterNamespace.rest.head? := by
      rw [passesBraces.rest]
      rfl
    obtain ⟨⟨defaultName, namespaceName⟩, readAgain, seen⟩ := again offset _ sameHead
    obtain ⟨afterAgain, readDefaultAgain, readNamespaceAgain⟩ :=
      Cursor.andThen_eq_some_iff.mp readAgain
    obtain ⟨read, reads, shaped⟩ := clauses?_of_braces (Option.some.inj readDefaultAgain)
      readNamespaceAgain closed blank stopSource stopsRest
    refine ⟨read, reads, shaped.trans ?_⟩
    obtain ⟨sameDefault, sameNamespace⟩ := Prod.mk.inj seen
    simp only [id_eq] at sameNamespace
    simp only [shape, sameDefault, sameNamespace, name, sameType]

theorem namespaceBinding?_eq_none {cursor next : Cursor}
    (found : namespaceBinding? cursor = some (none, next)) : next = cursor := by
  rw [namespaceBinding?] at found
  split at found
  · exact (Prod.mk.inj (Option.some.inj found)).2.symm
  · obtain ⟨word, -, found⟩ := Option.bind_eq_some_iff.mp found
    obtain ⟨⟨name, after⟩, -, equal⟩ := Option.bind_eq_some_iff.mp found
    simp at equal

theorem braces?_eq_none {cursor next : Cursor} (found : braces? cursor = some (none, next)) :
    next = cursor := by
  rw [braces?] at found
  split at found
  · exact (Prod.mk.inj (Option.some.inj found)).2.symm
  · obtain ⟨closed, -, equal⟩ := Option.bind_eq_some_iff.mp found
    simp at equal

/-- Braces are put behind a default binding that has nothing but the source behind it. -/
theorem clauses?_default {start : Nat} {typeOnly : Bool} {cursor next : Cursor}
    {declaration : ImportDeclaration} {binding : DefaultBinding}
    (found : clauses? start typeOnly cursor = some (declaration, next))
    (has : declaration.defaultBinding = some binding)
    (noNamespace : declaration.namespaceBinding = none) (noBraces : declaration.braces = none)
    (noComma : ∀ name rest, cursor.rest = name ++ rest →
      binding.stop = cursor.offset + byteLength name → (rest.dropWhile isBlank).head? ≠ some ',') :
    ∃ (name after : List Char) (source : SourceText) (middle : Cursor),
      IsIdentifier name ∧ cursor.Passes (name ++ after ++ source.chars) middle ∧
      StopsInline middle.rest ∧ next = middle.skip [';'] ∧
      binding.stop = cursor.offset + byteLength name ∧
      ∀ other, '}' ∉ other →
        ReadsAs typeOnly
          (name ++ ',' :: ' ' :: '{' :: other ++ '}' :: after ++ source.chars)
          { declaration.shape with bindings := some (bindings other) } := by
  obtain ⟨afterDefault, afterNamespace, afterBraces, readDefault, readNamespace, readBraces,
    readSource, sameType, -⟩ := clauses?_eq_some_iff.mp found
  rw [has] at readDefault
  rw [noNamespace] at readNamespace
  rw [noBraces] at readBraces
  obtain rfl := namespaceBinding?_eq_none readNamespace
  obtain rfl := braces?_eq_none readBraces
  obtain ⟨name, afterName, identifier, passes, stop, rfl, ended⟩ := defaultBinding?_eq_some readDefault
  have apart := noComma name afterName.rest passes.rest passes.offset
  rw [Cursor.skip_singleton_of_ne apart,
    Cursor.skipWhile_of_stop (head?_dropWhile_stops isBlank afterName.rest)] at ended
  have passesBlanks := Cursor.skipWhile_passes isBlank afterName
  rw [← ended] at passesBlanks
  obtain ⟨source, middle, specifier, passesSource, stops, ends⟩ := source?_eq_some readSource
  refine ⟨name, afterName.rest.takeWhile isBlank, source, middle, identifier,
    (passes.trans passesBlanks).trans passesSource, stops, ends, passes.offset, ?_⟩
  intro other closed start offset rest stopsRest
  have stopSource : ∀ c ∈ (source.chars ++ rest).head?, isBlank c = false := by
    rw [source.head?_append rest middle.rest, ← passesSource.rest, ended]
    exact head?_dropWhile_stops isBlank afterName.rest
  have blank : ∀ c ∈ afterName.rest.takeWhile isBlank, isBlank c = true :=
    fun c member => mem_takeWhile_imp member
  have noBlankNext : ∀ c ∈ ('{' :: other ++ '}' :: afterName.rest.takeWhile isBlank ++
      (source.chars ++ rest)).head?, isBlank c = false := by
    rintro c ⟨⟩
    decide
  have readName := defaultBinding?_append_comma identifier
    ([' '] ++ ('{' :: other ++ '}' :: afterName.rest.takeWhile isBlank ++ (source.chars ++ rest)))
    offset
  rw [Cursor.skipWhile_append (List.all_eq_true.mp rfl) noBlankNext] at readName
  have comma : ','.utf8Size = 1 := rfl
  have length : offset + byteLength name + 1 + byteLength [' '] =
      offset + byteLength (name ++ [',', ' ']) := by
    simp [byteLength_append, byteLength, comma, Nat.add_assoc]
  have text (more : List Char) : name ++ ',' :: ([' '] ++ more) = name ++ [',', ' '] ++ more := by simp
  rw [length, text] at readName
  obtain ⟨read, reads, shaped⟩ := clauses?_of_braces readName
    (namespaceBinding?_of_other (by simp)) closed blank stopSource stopsRest
  refine ⟨read, by simpa using reads, shaped.trans ?_⟩
  simp only [shape, has, noNamespace, specifier, sameType, Option.map_some]

/-! ## The mark of a declaration of types -/

theorem wordAndBlanks?_eq_some_iff {word : List Char} {cursor next : Cursor} :
    wordAndBlanks? word cursor = some next ↔
      ∃ run, run ≠ [] ∧ (∀ c ∈ run, isBlank c = true) ∧ cursor.Passes (word ++ run) next ∧
        ∀ c ∈ next.rest.head?, isBlank c = false := by
  constructor
  · intro found
    obtain ⟨middle, read, found⟩ := Option.bind_eq_some_iff.mp found
    obtain ⟨c, peeked, found⟩ := Option.bind_eq_some_iff.mp found
    split at found
    · rename_i blank
      obtain rfl := Option.some.inj found
      refine ⟨middle.rest.takeWhile isBlank, ?_, fun c member => mem_takeWhile_imp member,
        (Cursor.expect?_eq_some_iff.mp read).trans (Cursor.skipWhile_passes isBlank middle),
        head?_dropWhile_stops isBlank middle.rest⟩
      obtain ⟨offset, rest⟩ := middle
      cases rest with
      | nil => simp [Cursor.peek?] at peeked
      | cons d rest =>
          obtain rfl : d = c := by simpa [Cursor.peek?] using peeked
          simp [blank]
    · simp at found
  · rintro ⟨run, filled, blank, passes, stop⟩
    obtain ⟨offset, text⟩ := cursor
    obtain ⟨stopOffset, rest⟩ := next
    obtain ⟨shape, moved⟩ := passes
    simp only at shape moved stop
    subst shape moved
    obtain ⟨c, more, rfl⟩ := List.exists_cons_of_ne_nil filled
    have blankHead : isBlank c = true := blank c List.mem_cons_self
    simp only [wordAndBlanks?, List.append_assoc, Cursor.expect?_append, Option.bind_eq_bind,
      Option.bind_some, Cursor.peek?, List.cons_append, List.head?_cons, blankHead, reduceIte]
    have skipped := Cursor.skipWhile_append blank stop (offset + byteLength word)
    simp only [List.cons_append] at skipped
    rw [skipped, byteLength_append, Nat.add_assoc]

/-- The word `type` with blanks and no comma behind it. -/
def TypeMark (text : List Char) : Prop :=
  ∃ run rest, text = ['t', 'y', 'p', 'e'] ++ run ++ rest ∧ run ≠ [] ∧
    (∀ c ∈ run, isBlank c = true) ∧ (∀ c ∈ rest.head?, isBlank c = false) ∧ rest.head? ≠ some ','

/-- A mark ends before a character that is neither a blank nor in the word itself. -/
theorem TypeMark.congr {front rest other : List Char} {c : Char} (notBlank : isBlank c = false)
    (outside : c ∉ ['t', 'y', 'p', 'e']) (mark : TypeMark (front ++ c :: rest)) :
    TypeMark (front ++ c :: other) := by
  obtain ⟨run, more, shape, filled, blank, stop, comma⟩ := mark
  have notIn : c ∉ ['t', 'y', 'p', 'e'] ++ run := by
    intro member
    rcases List.mem_append.mp member with word | gap
    · exact outside word
    · simp [blank c gap] at notBlank
  obtain ⟨middle, rfl, rfl⟩ : ∃ middle, front = ['t', 'y', 'p', 'e'] ++ run ++ middle ∧
      more = middle ++ c :: rest := by
    rcases List.append_eq_append_iff.mp shape with ⟨gap, word, rest'⟩ | ⟨middle, front', more'⟩
    · cases gap with
      | nil => exact ⟨[], by simpa using word.symm, by simpa using rest'.symm⟩
      | cons d gap =>
          obtain ⟨rfl, -⟩ := List.cons.inj rest'
          exact absurd (word ▸ List.mem_append_right front List.mem_cons_self) notIn
    · exact ⟨middle, front', more'⟩
  have sameHead : (middle ++ c :: other).head? = (middle ++ c :: rest).head? := by
    cases middle <;> rfl
  refine ⟨run, middle ++ c :: other, by simp, filled, blank, ?_, ?_⟩
  · rw [sameHead]
    exact stop
  · rw [sameHead]
    exact comma

theorem isIdentifier_type : IsIdentifier ['t', 'y', 'p', 'e'] :=
  ⟨⟨'t', rfl, by decide⟩, List.all_eq_true.mp rfl⟩

theorem isIdentifier_from : IsIdentifier ['f', 'r', 'o', 'm'] :=
  ⟨⟨'f', rfl, by decide⟩, List.all_eq_true.mp rfl⟩

/-- The character behind an identifier and a run of blanks ends the identifier. -/
theorem stops_of_blanks {run rest : List Char} (blank : ∀ c ∈ run, isBlank c = true)
    (stop : run = [] → ∀ c ∈ rest.head?, isIdentifierPart c = false) :
    ∀ c ∈ (run ++ rest).head?, isIdentifierPart c = false := by
  intro c member
  cases run with
  | nil => exact stop rfl c member
  | cons d run =>
      obtain rfl : d = c := by simpa using member
      exact not_isIdentifierPart_of_isBlank (blank d List.mem_cons_self)

theorem clauses?_head_ne_comma {start : Nat} {typeOnly : Bool} {cursor next : Cursor}
    {declaration : ImportDeclaration}
    (found : clauses? start typeOnly cursor = some (declaration, next)) :
    cursor.rest.head? ≠ some ',' := by
  intro comma
  obtain ⟨offset, rest⟩ := cursor
  obtain ⟨rest, rfl⟩ : ∃ more, rest = ',' :: more := by
    cases rest with
    | nil => simp at comma
    | cons c more => exact ⟨more, by simpa using comma⟩
  have noDefault : defaultBinding? ⟨offset, ',' :: rest⟩ = (none, ⟨offset, ',' :: rest⟩) :=
    defaultBinding?_of_other (by rintro c ⟨⟩; decide)
  have noNamespace : namespaceBinding? ⟨offset, ',' :: rest⟩ = some (none, ⟨offset, ',' :: rest⟩) :=
    namespaceBinding?_of_other (by simp)
  have noBraces : braces? ⟨offset, ',' :: rest⟩ = some (none, ⟨offset, ',' :: rest⟩) :=
    braces?_of_other (by simp)
  simp [clauses?, noDefault, noNamespace, noBraces, Cursor.expect?, dropPrefix?, specifier?,
    Cursor.peek?, isQuote] at found

/-- Where only a source is left, the word `from` can be read as a default binding. -/
theorem heads?_of_source? {cursor next : Cursor} {specifier : String}
    (starts : ∃ c ∈ cursor.rest.head?, isIdentifierStart c = true)
    (found : source? cursor = some (specifier, next)) :
    ∃ seen middle, heads? cursor = some (seen, middle) ∧ source? middle = some (specifier, next) := by
  obtain ⟨source, stop, rfl, passes, stops, rfl⟩ := source?_eq_some found
  obtain ⟨offset, rest⟩ := cursor
  obtain ⟨shape, moved⟩ := passes
  simp only at shape moved starts
  subst shape
  rcases source.lead_from with empty | ⟨run, blank, lead⟩
  · obtain ⟨c, member, letter⟩ := starts
    obtain rfl : source.opening = c := by
      simpa [SourceText.chars, empty] using member
    have part := isIdentifierPart_of_isIdentifierStart letter
    simp [not_isIdentifierPart_of_isQuote source.opening_quote] at part
  · let bare : SourceText := { source with lead := [], lead_from := .inl rfl }
    have shape : source.chars ++ stop.rest = ['f', 'r', 'o', 'm'] ++ (run ++ (bare.chars ++ stop.rest)) := by
      simp [SourceText.chars, lead, bare]
    have head : (bare.chars ++ stop.rest).head? = some source.opening := rfl
    have notBlank : ∀ c ∈ (bare.chars ++ stop.rest).head?, isBlank c = false := by
      rintro c ⟨⟩
      exact not_isBlank_of_isQuote source.opening_quote
    have ends : ∀ c ∈ (run ++ (bare.chars ++ stop.rest)).head?, isIdentifierPart c = false := by
      refine stops_of_blanks blank fun _ => ?_
      rintro c ⟨⟩
      exact not_isIdentifierPart_of_isQuote source.opening_quote
    have apart : ∀ c, isQuote c = false → (bare.chars ++ stop.rest).head? ≠ some c := by
      intro c other equal
      rw [head, Option.some.injEq] at equal
      simp [← equal, source.opening_quote] at other
    have readDefault := defaultBinding?_append isIdentifier_from ends
      (by rw [dropWhile_append_of_stop blank notBlank]; exact apart ',' (by decide)) offset
    rw [Cursor.skipWhile_append blank notBlank] at readDefault
    refine ⟨_, _, heads?_eq_some_iff.mpr ⟨_, _, shape ▸ readDefault,
      namespaceBinding?_of_other (apart '*' (by decide)), braces?_of_other (apart '{' (by decide))⟩, ?_⟩
    have length : offset + byteLength ['f', 'r', 'o', 'm'] + byteLength run + byteLength bare.chars =
        stop.offset := by
      rw [moved]
      simp [SourceText.chars, lead, bare, byteLength, byteLength_append, Nat.add_assoc]
    rw [bare.source?_append stops, length]

/-- What is read behind a default binding can be read without one. -/
theorem clauses?_behind_default {after afterNamespace afterBraces next : Cursor}
    {namespaceName : Option String} {braces : Option BraceList} {specifier : String}
    (readNamespace : namespaceBinding? after = some (namespaceName, afterNamespace))
    (readBraces : braces? afterNamespace = some (braces, afterBraces))
    (readSource : source? afterBraces = some (specifier, next)) (start : Nat) (typeOnly : Bool) :
    (clauses? start typeOnly after).isSome = true := by
  by_cases letter : ∃ c ∈ after.rest.head?, isIdentifierStart c = true
  · -- A word comes next, which can only be the word `from` of the source.
    obtain ⟨c, head, starts⟩ := letter
    have apart : ∀ d, isIdentifierStart d = false → after.rest.head? ≠ some d := by
      intro d noLetter equal
      rw [Option.mem_def, equal, Option.some.injEq] at head
      simp [head, starts] at noLetter
    rw [namespaceBinding?_of_other (apart '*' (by decide))] at readNamespace
    obtain ⟨-, rfl⟩ := Prod.mk.inj (Option.some.inj readNamespace)
    rw [braces?_of_other (apart '{' (by decide))] at readBraces
    obtain ⟨-, rfl⟩ := Prod.mk.inj (Option.some.inj readBraces)
    obtain ⟨⟨defaultBinding, namespaceName, braces⟩, middle, readHeads, readRest⟩ :=
      heads?_of_source? ⟨c, head, starts⟩ readSource
    rw [clauses?_of_heads readHeads readRest]
    rfl
  · have noDefault : defaultBinding? after = (none, after) := by
      refine defaultBinding?_of_other fun c head => ?_
      rw [Bool.eq_false_iff]
      exact fun starts => letter ⟨c, head, starts⟩
    have readHeads := heads?_eq_some_iff.mpr ⟨_, _, noDefault, readNamespace, readBraces⟩
    rw [clauses?_of_heads readHeads readSource]
    rfl

/-- Where a declaration can be read without the mark, it can be read with it exactly when the mark is
there. -/
theorem marked_isSome_iff {start : Nat} {cursor next : Cursor} {declaration : ImportDeclaration}
    (found : clauses? start false cursor = some (declaration, next)) (other : Nat) :
    ((wordAndBlanks? ['t', 'y', 'p', 'e'] cursor).bind (clauses? other true)).isSome = true ↔
      TypeMark cursor.rest := by
  constructor
  · intro readable
    obtain ⟨⟨marked, afterMarked⟩, read⟩ := Option.isSome_iff_exists.mp readable
    obtain ⟨afterWord, word, typed⟩ := Option.bind_eq_some_iff.mp read
    obtain ⟨run, filled, blank, passes, stop⟩ := wordAndBlanks?_eq_some_iff.mp word
    exact ⟨run, afterWord.rest, passes.rest, filled, blank, stop, clauses?_head_ne_comma typed⟩
  · rintro ⟨run, rest, text, filled, blank, stop, noComma⟩
    obtain ⟨offset, chars⟩ := cursor
    simp only at text
    subst text
    obtain ⟨after, position⟩ : ∃ after : Cursor,
        after = ⟨offset + byteLength (['t', 'y', 'p', 'e'] ++ run), rest⟩ := ⟨_, rfl⟩
    have word : wordAndBlanks? ['t', 'y', 'p', 'e'] ⟨offset, ['t', 'y', 'p', 'e'] ++ run ++ rest⟩ =
        some after :=
      wordAndBlanks?_eq_some_iff.mpr ⟨run, filled, blank, by rw [position]; exact ⟨rfl, rfl⟩,
        by rw [position]; exact stop⟩
    have ends : ∀ c ∈ (run ++ rest).head?, isIdentifierPart c = false :=
      stops_of_blanks blank fun empty => absurd empty filled
    -- Without the mark the word is the default binding, and what follows is the same.
    have readWord := defaultBinding?_append isIdentifier_type ends
      (by rw [dropWhile_append_of_stop blank stop]; exact noComma) offset
    rw [Cursor.skipWhile_append blank stop, Nat.add_assoc, ← byteLength_append, ← position,
      ← List.append_assoc] at readWord
    obtain ⟨afterDefault, afterNamespace, afterBraces, readDefault, readNamespace, readBraces,
      readSource, -, -⟩ := clauses?_eq_some_iff.mp found
    obtain rfl : after = afterDefault := by
      rw [readWord] at readDefault
      exact (Prod.mk.inj readDefault).2
    rw [word, Option.bind_some]
    exact clauses?_behind_default readNamespace readBraces readSource other true

end ImportDeclaration

end AutoImport
