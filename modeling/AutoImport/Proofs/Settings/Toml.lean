import AutoImport.Proofs.Toml.Document
import AutoImport.Proofs.Toml.Number
import AutoImport.Settings.Toml

/-!
# Settings that are read back

Settings are written as a document of sections, unless a number in them is too large. Each value is
read back in front of the end of its line, and so the document spells the settings.
-/

namespace AutoImport

open Text

namespace Toml

/-! ## Values -/

theorem readValue?_of_scalar {depth : Nat} {text : List Char} (noList : ∀ more, text ≠ '[' :: more)
    (noTable : ∀ more, text ≠ '{' :: more) : readValue? depth text = readScalar? text :=
  readValue?.eq_3 depth text (fun _ more _ => noList more) (fun _ more _ => noTable more)

/-- Only a quote begins a written string. -/
theorem writeString_append_ne {text rest more : List Char} {mark : Char} (other : isQuote mark = false) :
    writeString text ++ rest ≠ mark :: more := by
  rcases exists_quote_writeString text with ⟨c, behind, begins, quote⟩
  rw [begins]
  rintro ⟨⟩
  simp [quote] at other

theorem readValue?_writeString {depth : Nat} (text : String) {rest : List Char}
    (ends : ∀ c ∈ rest.head?, isQuote c = false) :
    readValue? depth (writeString text.toList ++ rest) = some (.string text, rest) := by
  rw [readValue?_of_scalar (fun _ => writeString_append_ne (by decide))
    (fun _ => writeString_append_ne (by decide)), readScalar?, readString?_writeString _ ends]
  simp

theorem readsAs_writeString (text : String) : ReadsAs (writeString text.toList) (.string text) where
  begins := by
    rcases exists_quote_writeString text.toList with ⟨c, more, begins, quote⟩
    refine ⟨c, more, begins, ?_⟩
    rcases (by simpa [isQuote] using quote : c = '"' ∨ c = '\'') with rfl | rfl <;> rfl
  plain := not_mem_writeString text.toList
  reads := fun rest => readValue?_writeString text (by rintro c ⟨⟩; decide)

theorem readsAs_writeTruth (value : Bool) : ReadsAs (Settings.writeTruth value) (.truth value) where
  begins := by cases value <;> exact ⟨_, _, rfl, by decide⟩
  plain := by cases value <;> decide
  reads := fun rest => by cases value <;> rfl

theorem readsAs_toDigits {number : Nat} (bounded : number < 1 <<< 63) :
    ReadsAs (Nat.toDigits 10 number) (.integer number) := by
  obtain ⟨first, more, shape⟩ := List.exists_cons_of_ne_nil (@Nat.toDigits_ne_nil number 10)
  have digits : ∀ c ∈ Nat.toDigits 10 number, c.isDigit = true :=
    fun c member => Nat.isDigit_of_mem_toDigits (by decide) (by decide) member
  have digit : first.isDigit = true := digits first (by simp [shape])
  have apart {mark : Char} (other : mark.isDigit = false) : first ≠ mark := by
    rintro rfl
    simp [digit] at other
  refine ⟨⟨first, more, shape, ?_⟩, fun member => absurd (digits _ member) (by decide), fun rest => ?_⟩
  · simp [isInlineBlank, apart (by decide : ' '.isDigit = false), apart (by decide : '\t'.isDigit = false)]
  · have noString : readString? (Nat.toDigits 10 number ++ '\n' :: rest) = none := by
      rw [shape]
      refine readString?_eq_none ?_
      rintro c ⟨⟩
      simp [isQuote, apart (by decide : '"'.isDigit = false), apart (by decide : '\''.isDigit = false)]
    have noWord {start : Char} {word : List Char} (letter : start.isDigit = false) :
        dropPrefix? (start :: word) (Nat.toDigits 10 number ++ '\n' :: rest) = none := by
      rw [shape]
      simp [dropPrefix?, Ne.symm (apart letter)]
    rw [readValue?_of_scalar, readScalar?, noString, noWord (by decide), noWord (by decide)]
    · exact readNumber?_toDigits bounded rest
    · simp [shape, apart (by decide : '['.isDigit = false)]
    · simp [shape, apart (by decide : '{'.isDigit = false)]

/-! ## Lists -/

section Items

variable {depth fuel : Nat} {shown rest : List Char} (text : String)

theorem readItems?_last (skipped : skipLines false shown = writeString text.toList ++ ']' :: rest) :
    readItems? (readValue? depth) (fuel + 1) shown = some ([.string text], rest) := by
  rw [readItems?, skipped]
  split
  · rename_i same
    exact absurd same (writeString_append_ne (by decide))
  · refine Option.bind_eq_some_iff.mpr ⟨_, readValue?_writeString text (by rintro c ⟨⟩; decide), ?_⟩
    simp [skipLines, isInlineBlank]

theorem readItems?_next {items : List Toml} {after : List Char}
    (skipped : skipLines false shown = writeString text.toList ++ ',' :: rest)
    (later : readItems? (readValue? depth) fuel rest = some (items, after)) :
    readItems? (readValue? depth) (fuel + 1) shown = some (.string text :: items, after) := by
  rw [readItems?, skipped]
  split
  · rename_i same
    exact absurd same (writeString_append_ne (by decide))
  · refine Option.bind_eq_some_iff.mpr ⟨_, readValue?_writeString text (by rintro c ⟨⟩; decide), ?_⟩
    simp [skipLines, isInlineBlank, later]

end Items

theorem skipLines_writeString (text rest : List Char) :
    skipLines false (writeString text ++ rest) = writeString text ++ rest := by
  rcases exists_quote_writeString text with ⟨c, more, begins, quote⟩
  rw [begins]
  rcases (by simpa [isQuote] using quote : c = '"' ∨ c = '\'') with rfl | rfl <;> rfl

/-- The line of an item in a list of several. -/
def itemLine (text : String) : List Char :=
  "    ".toList ++ writeString text.toList ++ [',', '\n']

theorem readItems?_lines {depth : Nat} (texts : List String) (rest : List Char) {fuel : Nat}
    (enough : (texts.flatMap itemLine).length < fuel) :
    readItems? (readValue? depth) fuel ('\n' :: (texts.flatMap itemLine ++ ']' :: rest)) =
      some (texts.map Toml.string, rest) := by
  obtain ⟨fuel, rfl⟩ := Nat.exists_eq_succ_of_ne_zero (Nat.ne_of_gt (Nat.zero_lt_of_lt enough))
  induction texts generalizing fuel with
  | nil => rfl
  | cons text texts ih =>
      rw [List.flatMap_cons, List.length_append] at enough
      have shorter : (texts.flatMap itemLine).length < fuel := by
        have line : 0 < (itemLine text).length := by simp [itemLine]
        omega
      obtain ⟨fuel, rfl⟩ := Nat.exists_eq_succ_of_ne_zero (Nat.ne_of_gt (Nat.zero_lt_of_lt shorter))
      have skipped : skipLines false ('\n' :: ((text :: texts).flatMap itemLine ++ ']' :: rest)) =
          writeString text.toList ++ ',' :: '\n' :: (texts.flatMap itemLine ++ ']' :: rest) := by
        rw [← skipLines_writeString]
        simp [itemLine, skipLines, isInlineBlank]
      exact readItems?_next text skipped (ih fuel shorter)

theorem not_mem_writeTexts (texts : List String) : '\r' ∉ Settings.writeTexts texts := by
  have lines : '\r' ∉ texts.flatMap itemLine := by
    simp [itemLine, not_mem_writeString]
  unfold Settings.writeTexts
  split
  · decide
  · simp [not_mem_writeString]
  · simpa [itemLine] using lines

theorem readValue?_list {depth : Nat} {shown rest : List Char} {items : List Toml}
    (read : readItems? (readValue? depth) (shown.length + 1) shown = some (items, rest)) :
    readValue? (depth + 1) ('[' :: shown) = some (.list items, rest) := by
  rw [readValue?, read]
  rfl

/-- A list is read back in each of its forms. -/
theorem readValue?_writeTexts {depth : Nat} (texts : List String) (rest : List Char) :
    readValue? (depth + 1) (Settings.writeTexts texts ++ rest) =
      some (.list (texts.map Toml.string), rest) := by
  unfold Settings.writeTexts
  split
  · rfl
  · rename_i text
    rw [List.append_assoc, List.append_assoc]
    exact readValue?_list (readItems?_last text (skipLines_writeString text.toList (']' :: rest)))
  · have shape : ['[', '\n'] ++ texts.flatMap itemLine ++ [']'] ++ rest =
        '[' :: '\n' :: (texts.flatMap itemLine ++ ']' :: rest) := by simp
    have read := @readValue?_list depth _ _ _
      (readItems?_lines texts rest (by simp only [List.length_cons, List.length_append]; omega))
    rwa [← shape] at read

theorem readsAs_writeTexts (texts : List String) :
    ReadsAs (Settings.writeTexts texts) (.list (texts.map Toml.string)) where
  begins := by
    obtain ⟨more, begins⟩ : ∃ more, Settings.writeTexts texts = '[' :: more := by
      unfold Settings.writeTexts
      split <;> exact ⟨_, rfl⟩
    exact ⟨'[', more, begins, by decide⟩
  plain := not_mem_writeTexts texts
  reads := fun rest => readValue?_writeTexts texts ('\n' :: rest)

theorem texts?_list (texts : List String) : (Toml.list (texts.map Toml.string)).texts? = some texts := by
  rw [texts?]
  induction texts with
  | nil => rfl
  | cons text texts ih => rw [List.map_cons, List.mapM_cons, ih]; rfl

/-! ## Settings by the kinds of their values -/

namespace WrittenSetting

def ofText (name value : String) : WrittenSetting :=
  ⟨name, writeString value.toList, .string value⟩

def ofTruth (name : String) (value : Bool) : WrittenSetting :=
  ⟨name, Settings.writeTruth value, .truth value⟩

def ofTexts (name : String) (texts : List String) : WrittenSetting :=
  ⟨name, Settings.writeTexts texts, .list (texts.map Toml.string)⟩

def ofCount (name : String) (count : Nat) : WrittenSetting :=
  ⟨name, Nat.toDigits 10 count, .integer count⟩

end WrittenSetting

end Toml

namespace Settings

open Toml

theorem count?_integer (count : Nat) : (Toml.integer count).count? = some count := by
  simp [count?]

/-! ## Sections -/

/-- The section that says whether importing is on and what is announced. -/
def writtenImporter (settings : ImporterSettings) : WrittenSection :=
  ⟨"importer", [.ofTruth "enabled" settings.enabled, .ofText "notifications" settings.notifications.label]⟩

/-- The section that says which files are indexed. -/
def writtenScan (settings : ScanSettings) : WrittenSection :=
  ⟨"scan", [.ofTexts "include" settings.including, .ofTexts "exclude" settings.excluding,
    .ofTruth "respect_gitignore" settings.respectGitignore] ++
      settings.parallelThreads.toList.map (.ofCount "parallel_threads")⟩

/-- The section that says how statements are written. -/
def writtenStyle (style : ImportStyle) : WrittenSection :=
  ⟨"style", [.ofText "quote" style.quote.label, .ofTruth "semicolons" style.semicolons]⟩

/-- The section that says how changes are collected. -/
def writtenWatch (settings : WatchSettings) : WrittenSection :=
  ⟨"watch", [.ofCount "debounce_ms" settings.debounceMs]⟩

/-- The section that says where logs go. -/
def writtenLogging (settings : LoggingSettings) : WrittenSection :=
  ⟨"logging", [.ofTruth "enabled" settings.enabled, .ofTruth "stderr" settings.stderr,
    .ofText "level" settings.level, .ofText "directory" settings.directory.spelling,
    .ofText "file_prefix" settings.filePrefix, .ofText "rotation" settings.rotation]⟩

/-- All sections, in their order. -/
def written (settings : Settings) : List WrittenSection :=
  [writtenImporter settings.importer, writtenScan settings.scan, writtenStyle settings.style,
    writtenWatch settings.watch, writtenLogging settings.logging]

/-- What is known of a section by the names in it. -/
theorem isReadable_of_names {block : WrittenSection} (name : String) (names : List String)
    (header : block.name = name) (inside : block.settings.map WrittenSetting.name = names)
    (bare : IsBareName name ∧ (∀ other ∈ names, IsBareName other) ∧ names.Nodup)
    (values : ∀ setting ∈ block.settings, ReadsAs setting.written setting.value) : block.IsReadable where
  bare := header ▸ bare.1
  names := List.forall_mem_map.mp (inside ▸ bare.2.1)
  values := values
  distinct := inside ▸ bare.2.2

theorem isReadable_writtenImporter (settings : ImporterSettings) :
    (writtenImporter settings).IsReadable := by
  refine isReadable_of_names "importer" ["enabled", "notifications"] rfl rfl (by decide) ?_
  simp only [writtenImporter, List.forall_mem_cons]
  exact ⟨readsAs_writeTruth _, readsAs_writeString _, by simp⟩

theorem isReadable_writtenScan {settings : ScanSettings}
    (small : ∀ threads ∈ settings.parallelThreads, threads < 1 <<< 63) :
    (writtenScan settings).IsReadable := by
  have kept : ∀ setting ∈ [WrittenSetting.ofTexts "include" settings.including,
      .ofTexts "exclude" settings.excluding, .ofTruth "respect_gitignore" settings.respectGitignore],
      ReadsAs setting.written setting.value := by
    simp only [List.forall_mem_cons]
    exact ⟨readsAs_writeTexts _, readsAs_writeTexts _, readsAs_writeTruth _, by simp⟩
  cases threads : settings.parallelThreads with
  | none =>
      refine isReadable_of_names "scan" ["include", "exclude", "respect_gitignore"] rfl
        (by rw [writtenScan, threads]; rfl) (by decide) ?_
      simpa only [writtenScan, threads, Option.toList_none, List.map_nil, List.append_nil] using kept
  | some count =>
      refine isReadable_of_names "scan" ["include", "exclude", "respect_gitignore", "parallel_threads"] rfl
        (by rw [writtenScan, threads]; rfl) (by decide) ?_
      simp only [writtenScan, threads, List.forall_mem_append]
      refine ⟨kept, ?_⟩
      simpa [WrittenSetting.ofCount] using readsAs_toDigits (small count threads)

theorem isReadable_writtenStyle (style : ImportStyle) : (writtenStyle style).IsReadable := by
  refine isReadable_of_names "style" ["quote", "semicolons"] rfl rfl (by decide) ?_
  simp only [writtenStyle, List.forall_mem_cons]
  exact ⟨readsAs_writeString _, readsAs_writeTruth _, by simp⟩

theorem isReadable_writtenWatch {settings : WatchSettings} (small : settings.debounceMs < 1 <<< 63) :
    (writtenWatch settings).IsReadable := by
  refine isReadable_of_names "watch" ["debounce_ms"] rfl rfl (by decide) ?_
  simp only [writtenWatch, List.forall_mem_cons]
  exact ⟨readsAs_toDigits small, by simp⟩

theorem isReadable_writtenLogging (settings : LoggingSettings) :
    (writtenLogging settings).IsReadable := by
  refine isReadable_of_names "logging"
    ["enabled", "stderr", "level", "directory", "file_prefix", "rotation"] rfl rfl (by decide) ?_
  simp only [writtenLogging, List.forall_mem_cons]
  exact ⟨readsAs_writeTruth _, readsAs_writeTruth _, readsAs_writeString _, readsAs_writeString _,
    readsAs_writeString _, readsAs_writeString _, by simp⟩

/-! ## Sections that are read back -/

/-- A section as it stands in the document that is read. -/
def named (block : WrittenSection) : Section :=
  .named (block.settings.map WrittenSetting.entry)

theorem readImporter?_written (settings : ImporterSettings) :
    readImporter? (named (writtenImporter settings)) = some settings := by
  rcases settings with ⟨enabled, notifications⟩
  cases notifications <;> rfl

theorem readScan?_written (settings : ScanSettings) :
    readScan? (named (writtenScan settings)) = some settings := by
  rcases settings with ⟨including, excluding, respectGitignore, parallelThreads⟩
  refine Option.bind_eq_some_iff.mpr ⟨including, texts?_list including, ?_⟩
  refine Option.bind_eq_some_iff.mpr ⟨excluding, texts?_list excluding, ?_⟩
  refine Option.bind_eq_some_iff.mpr ⟨respectGitignore, rfl, ?_⟩
  refine Option.bind_eq_some_iff.mpr ⟨parallelThreads, ?_, rfl⟩
  cases parallelThreads with
  | none => rfl
  | some threads => exact congrArg (Option.map some) (count?_integer threads)

theorem readStyle?_written (style : ImportStyle) :
    readStyle? (named (writtenStyle style)) = some style := by
  rcases style with ⟨quote, semicolons⟩
  cases quote <;> rfl

theorem readWatch?_written (settings : WatchSettings) :
    readWatch? (named (writtenWatch settings)) = some settings := by
  have debounce : (named (writtenWatch settings)).read? 0 "debounce_ms" count?
      standard.watch.debounceMs = some settings.debounceMs := count?_integer _
  rw [readWatch?, debounce]
  rfl

theorem readLogging?_written (settings : LoggingSettings) :
    readLogging? (named (writtenLogging settings)) = some settings := by
  rcases settings with ⟨enabled, stderr, level, directory, filePrefix, rotation⟩
  rfl

theorem readSection?_of_lookup {α : Type} {entries : List (String × Toml)} {block : WrittenSection}
    {place : Nat} {read? : Section → Option α} {standard value : α}
    (found : entries.lookup block.name = some block.entry.2) (reads : read? (named block) = some value) :
    readSection? (.named entries) place block.name read? standard = some value := by
  simp only [readSection?, Section.read?, Section.value?, found]
  exact reads

theorem ofToml?_written (settings : Settings) :
    ofToml? (.table .header (settings.written.map WrittenSection.entry)) = some settings := by
  refine Option.bind_eq_some_iff.mpr
    ⟨settings.importer, readSection?_of_lookup rfl (readImporter?_written _), ?_⟩
  refine Option.bind_eq_some_iff.mpr ⟨settings.scan, readSection?_of_lookup rfl (readScan?_written _), ?_⟩
  refine Option.bind_eq_some_iff.mpr
    ⟨settings.style, readSection?_of_lookup rfl (readStyle?_written _), ?_⟩
  refine Option.bind_eq_some_iff.mpr
    ⟨settings.watch, readSection?_of_lookup rfl (readWatch?_written _), ?_⟩
  exact Option.bind_eq_some_iff.mpr
    ⟨settings.logging, readSection?_of_lookup rfl (readLogging?_written _), rfl⟩

/-! ## Settings with large numbers -/

/-- The largest number of sixty-four bits with a sign. -/
def largestNumber : Nat :=
  9223372036854775807

/-- A number in the settings does not fit into sixty-four bits with a sign. -/
def HasLargeNumber (settings : Settings) : Prop :=
  (∃ threads ∈ settings.scan.parallelThreads, largestNumber < threads) ∨
    largestNumber < settings.watch.debounceMs

theorem lt_iff_not_large {number : Nat} : number < 1 <<< 63 ↔ ¬ largestNumber < number :=
  Nat.lt_succ_iff.trans Nat.not_lt.symm

theorem writeCount?_of_lt {count : Nat} (bounded : count < 1 <<< 63) :
    writeCount? count = some (Nat.toDigits 10 count) := by
  rw [writeCount?, if_pos bounded]

theorem writeCount?_of_large {count : Nat} (large : largestNumber < count) : writeCount? count = none := by
  rw [writeCount?, if_neg fun bounded => lt_iff_not_large.mp bounded large]

theorem toText?_eq_none {settings : Settings} (large : settings.HasLargeNumber) :
    settings.toText? = none := by
  rcases large with ⟨threads, here, large⟩ | large
  · simp only [toText?, Option.mem_def.mp here, writeCount?_of_large large]
    rfl
  · rw [toText?, writeCount?_of_large large]
    cases settings.scan.parallelThreads with
    | none => rfl
    | some threads =>
        dsimp only
        cases writeCount? threads <;> rfl

section Small

variable {settings : Settings} (small : ¬ settings.HasLargeNumber)
include small

theorem threads_lt : ∀ threads ∈ settings.scan.parallelThreads, threads < 1 <<< 63 :=
  fun threads here => lt_iff_not_large.mpr fun large => small (.inl ⟨threads, here, large⟩)

theorem debounceMs_lt : settings.watch.debounceMs < 1 <<< 63 :=
  lt_iff_not_large.mpr fun large => small (.inr large)

theorem toText?_eq_some : settings.toText? = some (String.ofList (documentOf settings.written)) := by
  have bounded := threads_lt small
  rw [toText?, writeCount?_of_lt (debounceMs_lt small), written, writtenScan]
  cases given : settings.scan.parallelThreads with
  | none => rfl
  | some threads =>
      simp only [writeCount?_of_lt (bounded threads given)]
      rfl

theorem ofText?_written : ofText? (String.ofList (documentOf settings.written)) = some settings := by
  have readable : ∀ block ∈ settings.written, block.IsReadable := by
    simp only [written, List.forall_mem_cons]
    exact ⟨isReadable_writtenImporter _, isReadable_writtenScan (threads_lt small),
      isReadable_writtenStyle _, isReadable_writtenWatch (debounceMs_lt small),
      isReadable_writtenLogging _, by simp⟩
  have names : (settings.written.map WrittenSection.name).Nodup :=
    (by decide : ["importer", "scan", "style", "watch", "logging"].Nodup)
  rw [ofText?, String.toList_ofList, ofText?_documentOf (by simp [written]) readable names]
  exact ofToml?_written settings

end Small

end Settings

end AutoImport
