import AutoImport.CommandLine.Grammar
import AutoImport.Path.Basic

/-!
# Commands

What the program can be told to do, and how that is written on a command line.
-/

namespace AutoImport

inductive Command where
  | init (force : Bool)
  /-- Scan the workspace and say what was indexed. -/
  | index
  | complete (query : String) (modules exact anywhere : Bool) (limit : Nat)
  | fix (file : Path) (diagnostic : String)
  | addImport (file : Path) (name : String) (source : Option Path) (write : Bool)
  | watch (debounceMs : Option Nat)
  /-- Show counts of the index and of the scan. -/
  | stats (prometheus : Bool)
  deriving DecidableEq, Repr, Inhabited

namespace Command

def names : List String :=
  ["init", "index", "complete", "fix", "import", "watch", "stats"]

def flag (long : String) (short : Option Char) : OptionSpec :=
  ⟨long, short, .flag⟩

/-- The arguments of the command of a name. -/
def argumentsOf : String → ArgumentSpec
  | "init" => ⟨[flag "force" (some 'f')], [], []⟩
  | "complete" =>
    ⟨[flag "modules" (some 'm'), flag "exact" (some 'e'), flag "anywhere" (some 'a'),
      ⟨"limit", some 'l', .value .number⟩], [.text], [("exact", "anywhere")]⟩
  | "fix" => ⟨[], [.path, .text], []⟩
  | "import" =>
    ⟨[⟨"from", some 'f', .value .path⟩, flag "write" (some 'w')], [.path, .text], []⟩
  | "watch" => ⟨[⟨"debounce-ms", some 'd', .value .number⟩], [], []⟩
  | "stats" => ⟨[flag "prometheus" none], [], []⟩
  | _ => ⟨[], [], []⟩

/-- How many completions are listed when no limit is given. -/
def standardLimit : Nat := 20

/-- The command of a name with the given arguments. -/
def ofArguments (name : String) (given : GivenArguments) : Command :=
  let number? (option : String) : Option Nat := (given.named.lookup option).bind readNumber?
  match name, given.placed with
  | "init", _ => .init (given.has "force")
  | "complete", query :: _ =>
    .complete query (given.has "modules") (given.has "exact") (given.has "anywhere")
      ((number? "limit").getD standardLimit)
  | "fix", file :: diagnostic :: _ => .fix ⟨file⟩ diagnostic
  | "import", file :: symbol :: _ =>
    .addImport ⟨file⟩ symbol ((given.named.lookup "from").map Path.mk) (given.has "write")
  | "watch", _ => .watch (number? "debounce-ms")
  | "stats", _ => .stats (given.has "prometheus")
  | _, _ => .index

/-- The command for which help is asked by names. Only the program itself has commands. -/
def readHelp : List String → UsageError
  | [] => .helpWanted
  | [name] => if names.contains name || name == "help" then .helpWanted else .unknownCommand
  | _ => .unknownCommand

/-- The error of a command line that does not start with the name of a command. -/
def readOther : String → UsageError
  | text =>
    -- Only help and version may stand before a command; anything else there is a mistake.
    let given :=
      match text.toList with
      | '-' :: '-' :: name => (argumentsOf "").readLong .none name
      | '-' :: name :: more => (argumentsOf "").readShorts .none (name :: more)
      | _ => .error .unknownCommand
    match given with
    | .error error => error
    | .ok _ => .unknownArgument

/-- The command that a command line spells. -/
def read : List String → Except UsageError Command
  | [] | ["--"] => .error .nothingGiven
  -- A command has to come before the dashes, so its name behind them is out of place.
  | "--" :: name :: _ =>
    .error (if names.contains name || name == "help" then .unknownArgument else .unknownCommand)
  | "help" :: topics => .error (readHelp topics)
  | name :: arguments =>
    if names.contains name then
      ((argumentsOf name).read arguments).map (ofArguments name)
    else .error (readOther name)

def helpLines : List String :=
  ["Workspace symbol index and auto-import for TypeScript",
    "",
    "Usage: tsimport <COMMAND>",
    "",
    "Commands:",
    "  init [--force]",
    "  index",
    "  complete [--modules] [--exact | --anywhere] [--limit <LIMIT>] <QUERY>",
    "  fix <FILE> <DIAGNOSTIC>",
    "  import [--from <FROM>] [--write] <FILE> <NAME>",
    "  watch [--debounce-ms <DEBOUNCE_MS>]",
    "  stats [--prometheus]"]

/-- The document that a command works on, if there is one. -/
def document? : Command → Option Path
  | .fix file _ | .addImport file _ _ _ => some file
  | _ => none

/-- The command whose version a command line asks for; without one it is that of the program. -/
def versionTopic? : List String → Option String
  | name :: _ => if names.contains name then some name else none
  | [] => none

end Command

end AutoImport
