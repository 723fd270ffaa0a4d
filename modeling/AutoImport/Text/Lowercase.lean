import AutoImport.Text.Character
import AutoImport.Text.Table.Cased
import AutoImport.Text.Table.CaseIgnorable
import AutoImport.Text.Table.Lowercase

/-!
# Lower case

Lower case in the full sense of Unicode: most characters have a lower case of one character, the
dotted capital I has one of two, and a capital sigma becomes a final sigma at the end of a word.
-/

namespace AutoImport.Text

/-- A character with upper, lower or title case. -/
def isCased (c : Char) : Bool :=
  if c.toNat < 128 then c.isAlpha else inRanges c.toNat Table.casedRanges

/-- A character that is passed over when the cased neighbours of a sigma are looked for. -/
def isCaseIgnorable (c : Char) : Bool :=
  if c.toNat < 128 then c == '\'' || c == '.' || c == ':' || c == '^' || c == '\x60'
  else inRanges c.toNat Table.caseIgnorableRanges

/-- How far the lower case of a code point lies from it. -/
def lowercaseShift (point : Nat) : List Table.CaseRun → Int
  | [] => 0
  | run :: runs =>
    if point < run.first then 0
    else if point ≤ run.last then
      -- Runs in which upper and lower case alternate have step 2; the code points between are left.
      if (point - run.first) % run.step == 0 then run.shift else lowercaseShift point runs
    else lowercaseShift point runs

/-- The lower case of a character on its own. -/
def lowercaseOf (c : Char) : List Char :=
  if c.toNat < 128 then [c.toLower]
  -- The dotted capital I, the one character whose lower case has two.
  else if c.toNat == 0x130 then ['i', Char.ofNat 0x307]
  else [Char.ofNat (Int.toNat (c.toNat + lowercaseShift c.toNat Table.lowercaseRuns))]

/-- Whether the first character that is not case-ignorable is cased. -/
def meetsCased (text : List Char) : Bool :=
  match text.dropWhile isCaseIgnorable with
  | [] => false
  | c :: _ => isCased c

/-- The lower case of a text that stands after the characters `before`, nearest first. -/
def lowercaseAfter (before : List Char) : List Char → List Char
  | [] => []
  | c :: text =>
    (if c == 'Σ' then [if meetsCased before && !meetsCased text then 'ς' else 'σ']
      else lowercaseOf c) ++ lowercaseAfter (c :: before) text

def lowercase (text : List Char) : List Char :=
  lowercaseAfter [] text

end AutoImport.Text
