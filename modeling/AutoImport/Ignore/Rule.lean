import AutoImport.Ignore.Pattern
import AutoImport.Files.Content

/-!
# Rules of an ignore file

A line of an ignore file is a rule that ignores entries or, after a `!`, takes them back. Of the rules
that speak of an entry the last one decides.
-/

namespace AutoImport.Ignore

open Text

structure Rule where
  pattern : List Token
  /-- The rule takes entries back instead of ignoring them. -/
  keeps : Bool
  /-- The rule speaks of directories only. -/
  directoriesOnly : Bool
  deriving Repr, Inhabited

/-- What the rules of ignore files say about an entry. -/
inductive Verdict where
  | silent
  | ignored
  | kept
  deriving DecidableEq, Repr, Inhabited

namespace Verdict

/-- The first verdict, or the second one where the first is silent. -/
def orElse (first second : Verdict) : Verdict :=
  match first with
  | .silent => second
  | _ => first

def firstOf (verdicts : List Verdict) : Verdict :=
  verdicts.foldr orElse .silent

end Verdict

/-- The outcome of reading a line. -/
inductive LineReading where
  | blank
  | rule (rule : Rule)
  | invalid

/-- A pattern as it is matched: one that names no directory fits in every directory, and one that
ends in `/**` leaves out the directory itself. -/
def completePattern (anchored : Bool) (pattern : List Char) : List Char :=
  let pattern :=
    if anchored || pattern.contains '/' || pattern == ['*', '*'] then pattern
    else '*' :: '*' :: '/' :: pattern
  if endsWith ['/', '*', '*'] pattern then pattern ++ ['/', '*'] else pattern

/-- The rule that a pattern spells after the marks in front of it have been read. -/
def ruleOf (keeps anchored : Bool) (pattern : List Char) : LineReading :=
  let (pattern, directoriesOnly) :=
    match dropSuffix? ['/'] pattern with
    | none => (pattern, false)
    -- The slash goes even where it was escaped, and its backslash with it.
    | some rest => ((dropSuffix? ['\\'] rest).getD rest, true)
  match parse? (completePattern anchored pattern) with
  | some tokens => .rule ⟨tokens, keeps, directoriesOnly⟩
  | none => .invalid

/-- Reads a line of an ignore file. -/
def readLine (line : List Char) : LineReading :=
  if startsWith ['#'] line then .blank
  else
    -- A blank behind a backslash is part of the pattern.
    let line := if endsWith ['\\', ' '] line then line else trimEnd line
    match line with
    | [] => .blank
    | '\\' :: '!' :: rest => ruleOf false false ('!' :: rest)
    | '\\' :: '#' :: rest => ruleOf false false ('#' :: rest)
    | '!' :: '/' :: rest => ruleOf true true rest
    | '!' :: rest => ruleOf true false rest
    | '/' :: rest => ruleOf false true rest
    | rest => ruleOf false false rest

/-- The rules of an ignore file, and whether all of its lines could be read. -/
structure RuleFile where
  rules : List Rule
  intact : Bool
  deriving Repr, Inhabited

namespace RuleFile

/-- The first line without the byte order marks that it begins with. -/
def dropOrderMark : List (List Char) → List (List Char)
  | first :: lines => first.dropWhile (·.toNat == 0xFEFF) :: lines
  | [] => []

def ofLines (lines : List (List Char)) : RuleFile :=
  lines.foldr (fun line file =>
    match readLine line with
    | .blank => file
    | .rule rule => ⟨rule :: file.rules, file.intact⟩
    | .invalid => ⟨file.rules, false⟩) ⟨[], true⟩

/-- The rules of a file, as far as it is text. -/
def ofContent (content : FileContent) : RuleFile :=
  let (lines, complete) := content.lines
  let file := ofLines (dropOrderMark lines)
  ⟨file.rules, file.intact && complete⟩

end RuleFile

/-- What rules say about an entry at a path below their directory. -/
def verdictOf (rules : List Rule) (path : List Char) (isDirectory : Bool) : Verdict :=
  match rules.reverse.find? fun rule =>
      (!rule.directoriesOnly || isDirectory) && fits rule.pattern path with
  | some rule => if rule.keeps then .kept else .ignored
  | none => .silent

/-- What rules say about a file, or else about the nearest directory above it that they speak of. The
directories are given from the innermost one on. -/
def verdictWithin (rules : List Rule) (path : List Char) (above : List (List Char)) : Verdict :=
  Verdict.firstOf (verdictOf rules path false :: above.map fun directory =>
    verdictOf rules directory true)

end AutoImport.Ignore
