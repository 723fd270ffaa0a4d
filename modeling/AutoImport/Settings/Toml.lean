import AutoImport.Settings.Basic
import AutoImport.Toml.Document

/-!
# Settings in TOML

Settings are kept as a document with one table for each section. What a document does not set has its
standard value; what it sets beyond that is passed over.
-/

namespace AutoImport

/-! ## Reading -/

namespace Toml

/-- A section of settings: values under the names of the settings, or in their order. -/
inductive Section where
  | named (entries : List (String × Toml))
  | ordered (items : List Toml)
  deriving Inhabited

/-- A value as a section. A moment is one that sets nothing. -/
def section? : Toml → Option Section
  | .table _ entries => some (.named entries)
  | .list items | .tables items => some (.ordered items)
  | .moment => some (.named [])
  | _ => none

def Section.value? (place : Nat) (name : String) : Section → Option Toml
  | .named entries => entries.lookup name
  | .ordered items => items[place]?

/-- A setting of a section as it is read, or its standard value where it is not set. -/
def Section.read? {α : Type} (settings : Section) (place : Nat) (name : String)
    (read? : Toml → Option α) (standard : α) : Option α :=
  match settings.value? place name with
  | none => some standard
  | some value => read? value

def truth? : Toml → Option Bool
  | .truth value => some value
  | _ => none

def text? : Toml → Option String
  | .string value => some value
  | _ => none

/-- A value that is a number of things. -/
def count? : Toml → Option Nat
  | .integer value => if value < 0 then none else some value.toNat
  | _ => none

def texts? : Toml → Option (List String)
  | .list items => items.mapM text?
  | _ => none

def isVoid : Toml → Bool
  | .table _ [] | .list [] => true
  | _ => false

/-- A value that is one of several words. Instead of a word there may be a table with nothing but a void
value under the word. -/
def word? {α : Type} (ofLabel? : String → Option α) : Toml → Option α
  | .string word => ofLabel? word
  | .table _ [(word, value)] => if value.isVoid then ofLabel? word else none
  | _ => none

end Toml

namespace QuoteStyle

def label : QuoteStyle → String
  | .double => "double"
  | .single => "single"

def ofLabel? : String → Option QuoteStyle
  | "double" => some .double
  | "single" => some .single
  | _ => none

end QuoteStyle

namespace Settings

open Toml

/-- The settings of a section that is a value of the document, or the standard ones. -/
def readSection? {α : Type} (document : Section) (place : Nat) (name : String)
    (read? : Section → Option α) (standard : α) : Option α :=
  document.read? place name (fun value => value.section?.bind read?) standard

def readImporter? (settings : Section) : Option ImporterSettings := do
  let standard := Settings.standard.importer
  some {
    enabled := ← settings.read? 0 "enabled" truth? standard.enabled
    notifications := ← settings.read? 1 "notifications" (word? NotificationLevel.ofLabel?)
      standard.notifications }

def readScan? (settings : Section) : Option ScanSettings := do
  let standard := Settings.standard.scan
  some {
    including := ← settings.read? 0 "include" texts? standard.including
    excluding := ← settings.read? 1 "exclude" texts? standard.excluding
    respectGitignore := ← settings.read? 2 "respect_gitignore" truth? standard.respectGitignore
    parallelThreads := ← settings.read? 3 "parallel_threads" (fun value => value.count?.map some)
      standard.parallelThreads }

def readStyle? (settings : Section) : Option ImportStyle := do
  let standard := Settings.standard.style
  some {
    quote := ← settings.read? 0 "quote" (word? QuoteStyle.ofLabel?) standard.quote
    semicolons := ← settings.read? 1 "semicolons" truth? standard.semicolons }

def readWatch? (settings : Section) : Option WatchSettings := do
  some ⟨← settings.read? 0 "debounce_ms" count? Settings.standard.watch.debounceMs⟩

def readLogging? (settings : Section) : Option LoggingSettings := do
  let standard := Settings.standard.logging
  some {
    enabled := ← settings.read? 0 "enabled" truth? standard.enabled
    stderr := ← settings.read? 1 "stderr" truth? standard.stderr
    level := ← settings.read? 2 "level" text? standard.level
    directory := ← settings.read? 3 "directory" (fun value => value.text?.map Path.mk)
      standard.directory
    filePrefix := ← settings.read? 4 "file_prefix" text? standard.filePrefix
    rotation := ← settings.read? 5 "rotation" text? standard.rotation }

def ofToml? (document : Toml) : Option Settings := do
  let document ← document.section?
  let standard := Settings.standard
  some {
    importer := ← readSection? document 0 "importer" readImporter? standard.importer
    scan := ← readSection? document 1 "scan" readScan? standard.scan
    style := ← readSection? document 2 "style" readStyle? standard.style
    watch := ← readSection? document 3 "watch" readWatch? standard.watch
    logging := ← readSection? document 4 "logging" readLogging? standard.logging }

def ofText? (text : String) : Option Settings :=
  (Toml.ofText? text.toList).bind ofToml?

/-! ## Writing -/

/-- A list of texts: several of them each on a line of their own. -/
def writeTexts : List String → List Char
  | [] => ['[', ']']
  | [text] => ['['] ++ writeString text.toList ++ [']']
  | texts =>
    ['[', '\n'] ++
      texts.flatMap (fun text => "    ".toList ++ writeString text.toList ++ [',', '\n']) ++ [']']

def writeTruth (value : Bool) : List Char :=
  if value then "true".toList else "false".toList

/-- A number of things, as long as it fits into sixty-four bits with a sign. -/
def writeCount? (count : Nat) : Option (List Char) :=
  if count < 1 <<< 63 then some (Nat.toDigits 10 count) else none

def writeSetting (name : String) (value : List Char) : List Char :=
  name.toList ++ [' ', '=', ' '] ++ value ++ ['\n']

def writeSection (name : String) (settings : List (List Char)) : List Char :=
  ['['] ++ name.toList ++ [']', '\n'] ++ settings.flatten

/-- The text that spells settings. There is none when a number in them is too large. -/
def toText? (settings : Settings) : Option String := do
  let threads ←
    -- An unset number has no line: TOML has no word for nothing.
    match settings.scan.parallelThreads with
    | none => some []
    | some threads => (writeCount? threads).map fun count => [writeSetting "parallel_threads" count]
  let debounce ← writeCount? settings.watch.debounceMs
  let text (value : String) := writeString value.toList
  some (String.ofList (Text.joinWith ['\n'] [
    writeSection "importer" [
      writeSetting "enabled" (writeTruth settings.importer.enabled),
      writeSetting "notifications" (text settings.importer.notifications.label)],
    writeSection "scan" ([
      writeSetting "include" (writeTexts settings.scan.including),
      writeSetting "exclude" (writeTexts settings.scan.excluding),
      writeSetting "respect_gitignore" (writeTruth settings.scan.respectGitignore)] ++ threads),
    writeSection "style" [
      writeSetting "quote" (text settings.style.quote.label),
      writeSetting "semicolons" (writeTruth settings.style.semicolons)],
    writeSection "watch" [writeSetting "debounce_ms" debounce],
    writeSection "logging" [
      writeSetting "enabled" (writeTruth settings.logging.enabled),
      writeSetting "stderr" (writeTruth settings.logging.stderr),
      writeSetting "level" (text settings.logging.level),
      writeSetting "directory" (text settings.logging.directory.spelling),
      writeSetting "file_prefix" (text settings.logging.filePrefix),
      writeSetting "rotation" (text settings.logging.rotation)]]))

end Settings

end AutoImport
