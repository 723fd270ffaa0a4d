import AutoImport.Text.Search

/-!
# Reading arguments

The arguments after the name of a command: options with long and short names, values that follow an
option or are attached to it, and arguments that count by their place. `--` ends the options. The first
mistake from the left decides the error, where a value counts as read when the next argument begins.
-/

namespace AutoImport

open Text

/-- Why arguments cannot be followed, or need not be. -/
inductive UsageError where
  | helpWanted
  /-- The version was asked for, of a command or of the whole program. -/
  | versionWanted
  | nothingGiven
  | unknownCommand
  | unknownArgument
  | missingArgument
  /-- Arguments that exclude one another, or one that is given twice. -/
  | conflict
  | missingValue
  /-- A value for an option that takes none. -/
  | needlessValue
  | malformedValue
  deriving DecidableEq, Repr

namespace UsageError

def message : UsageError → String
  | .helpWanted => "help was asked for"
  | .versionWanted => "the version was asked for"
  | .nothingGiven => "a command is required"
  | .unknownCommand => "unrecognized command"
  | .unknownArgument => "unexpected argument"
  | .missingArgument => "a required argument was not given"
  | .conflict => "arguments cannot be used together or repeatedly"
  | .missingValue => "a value is required for an argument"
  | .needlessValue => "a value was given to an option that takes none"
  | .malformedValue => "a value is not a number that fits"

end UsageError

inductive ValueForm where
  | text
  /-- Any text that is not empty. -/
  | path
  /-- A number of sixty-four bits. -/
  | number
  deriving DecidableEq, Repr

inductive OptionKind where
  | help
  | version
  | flag
  | value (form : ValueForm)
  deriving DecidableEq, Repr

structure OptionSpec where
  long : String
  short : Option Char
  kind : OptionKind
  deriving DecidableEq, Repr

/-- The arguments of a command. -/
structure ArgumentSpec where
  options : List OptionSpec
  places : List ValueForm
  /-- Options that exclude one another. -/
  exclusive : List (String × String)
  deriving DecidableEq, Repr

/-- A number of sixty-four bits as it is written, perhaps with a plus. -/
def readNumber? (text : String) : Option Nat :=
  let digits := (dropPrefix? ['+'] text.toList).getD text.toList
  let number := digits.foldl (fun number c => 10 * number + (c.toNat - '0'.toNat)) 0
  if !digits.isEmpty && digits.all Char.isDigit && number < 1 <<< 64 then some number else none

namespace ValueForm

/-- What is wrong with a value, if anything is. -/
def fault? (form : ValueForm) (value : String) : Option UsageError :=
  match form with
  | .text => none
  | .path => if value.isEmpty then some .missingValue else none
  | .number => if (readNumber? value).isNone then some .malformedValue else none

end ValueForm

/-- An argument that is not counted as read yet. -/
inductive PendingArgument where
  /-- An option that takes a value, and the value if it was given. -/
  | named (option : String) (form : ValueForm) (value : Option String)
  | placed (form : ValueForm) (value : String)
  deriving DecidableEq, Repr

structure GivenArguments where
  /-- The options with their values; those without a value have the empty text. -/
  named : List (String × String)
  placed : List String
  pending : Option PendingArgument
  deriving DecidableEq, Repr

namespace GivenArguments

def none : GivenArguments :=
  ⟨[], [], Option.none⟩

def has (given : GivenArguments) (option : String) : Bool :=
  (given.named.lookup option).isSome

/-- The arguments with one more option. -/
def addNamed (given : GivenArguments) (option value : String) : Except UsageError GivenArguments :=
  if given.has option then .error .conflict
  else .ok { given with named := given.named ++ [(option, value)] }

/-- The arguments of which none is pending. -/
def settle (given : GivenArguments) : Except UsageError GivenArguments :=
  let settled := { given with pending := Option.none }
  match given.pending with
  | Option.none => .ok settled
  | some (.named _ _ Option.none) => .error .missingValue
  -- A repeated option is found before the value is looked at.
  | some (.named option form (some value)) => do
    let settled ← settled.addNamed option value
    match form.fault? value with
    | some fault => .error fault
    | Option.none => .ok settled
  | some (.placed form value) =>
    match form.fault? value with
    | some fault => .error fault
    | Option.none => .ok { settled with placed := settled.placed ++ [value] }

/-- The arguments with one more that is pending. -/
def await (given : GivenArguments) (pending : PendingArgument) : Except UsageError GivenArguments := do
  let settled ← given.settle
  .ok { settled with pending := some pending }

end GivenArguments

namespace ArgumentSpec

def commonOptions : List OptionSpec :=
  [⟨"help", some 'h', .help⟩, ⟨"version", some 'V', .version⟩]

def ofLong? (spec : ArgumentSpec) (name : String) : Option OptionSpec :=
  (spec.options ++ commonOptions).find? (·.long == name)

def ofShort? (spec : ArgumentSpec) (name : Char) : Option OptionSpec :=
  (spec.options ++ commonOptions).find? (·.short == some name)

/-- The arguments after an option that takes no value. -/
def giveFlag (given : GivenArguments) (option : OptionSpec) : Except UsageError GivenArguments := do
  let given ← given.settle
  match option.kind with
  | .help => .error .helpWanted
  | .version => .error .versionWanted
  | _ => given.addNamed option.long ""

/-- The arguments after an option with a value attached. -/
def giveValue (given : GivenArguments) (option : OptionSpec) (form : ValueForm) (value : List Char) :
    Except UsageError GivenArguments := do
  let given ← given.await (.named option.long form (some (String.ofList value)))
  given.settle

/-- The arguments after one that starts with two dashes. -/
def readLong (spec : ArgumentSpec) (given : GivenArguments) (text : List Char) :
    Except UsageError GivenArguments :=
  let (name, rest) := spanWhile (· != '=') text
  match spec.ofLong? (String.ofList name) with
  | none => .error .unknownArgument
  | some option =>
    match option.kind, rest with
    | .value form, _ :: value => giveValue given option form value
    | .value form, [] => given.await (.named option.long form none)
    | _, _ :: _ => .error .needlessValue
    | _, [] => giveFlag given option

/-- The arguments after short names behind one dash. What follows the name of an option that takes a
value is its value. -/
def readShorts (spec : ArgumentSpec) : GivenArguments → List Char → Except UsageError GivenArguments
  | given, [] => .ok given
  | given, name :: rest =>
    match spec.ofShort? name with
    | none => .error .unknownArgument
    | some option =>
      match option.kind, rest with
      | .value form, [] => given.await (.named option.long form none)
      | .value form, '=' :: value => giveValue given option form value
      | .value form, value => giveValue given option form value
      | _, _ => do readShorts spec (← giveFlag given option) rest

/-- The arguments after one that counts by its place. -/
def readPlaced (spec : ArgumentSpec) (given : GivenArguments) (value : String) :
    Except UsageError GivenArguments :=
  -- A pending argument that counts by its place holds that place already.
  let before := given.placed.length +
    match given.pending with
    | some (.placed ..) => 1
    | _ => 0
  match spec.places[before]? with
  | none => .error .unknownArgument
  | some form => given.await (.placed form value)

/-- All arguments. After `--` they count by their place. -/
def readAll (spec : ArgumentSpec) :
    (escaped : Bool) → GivenArguments → List String → Except UsageError GivenArguments
  | _, given, [] => given.settle
  | true, given, text :: rest => do readAll spec true (← spec.readPlaced given text) rest
  | false, given, text :: rest =>
    match text.toList with
    | ['-', '-'] => readAll spec true given rest
    | '-' :: '-' :: name => do readAll spec false (← spec.readLong given name) rest
    | '-' :: name :: names => do readAll spec false (← spec.readShorts given (name :: names)) rest
    | _ =>
      match given.pending with
      -- The first text behind an option that takes a value is its value.
      | some (.named option form none) =>
        readAll spec false { given with pending := some (.named option form (some text)) } rest
      | _ => do readAll spec false (← spec.readPlaced given text) rest

/-- The arguments of a command, when they are complete and do not exclude one another. -/
def read (spec : ArgumentSpec) (arguments : List String) : Except UsageError GivenArguments := do
  let given ← spec.readAll false .none arguments
  if spec.exclusive.any fun (one, other) => given.has one && given.has other then .error .conflict
  else if given.placed.length < spec.places.length then .error .missingArgument
  else .ok given

end ArgumentSpec

end AutoImport
