import AutoImport.Text.Search

/-!
# Glob patterns

The patterns that say which files of a workspace are indexed. `*`, `?` and classes stay within one
segment of a path; `**` stands for whole segments, any number of them.
-/

namespace AutoImport.Glob

open Text

/-- A part of a class: a range of characters, of one character or more. -/
structure CharRange where
  first : Char
  last : Char
  deriving DecidableEq, Repr

namespace CharRange

def holds (range : CharRange) (c : Char) : Bool :=
  range.first ≤ c && c ≤ range.last

/-- The ranges that the characters between brackets spell. -/
def ofSpelling : List Char → List CharRange
  | first :: '-' :: last :: rest => ⟨first, last⟩ :: ofSpelling rest
  | c :: rest => ⟨c, c⟩ :: ofSpelling rest
  | [] => []

end CharRange

/-- A part of a pattern. -/
inductive Token where
  | literal (c : Char)
  | anyChar
  | anyRun
  /-- Any number of whole segments. -/
  | anySegments
  /-- A character of a segment that lies in one of the ranges, or in none of them when `negated`. -/
  | oneOf (negated : Bool) (ranges : List CharRange)
  deriving DecidableEq, Repr

structure Pattern where
  tokens : List Token
  deriving DecidableEq, Repr

namespace Pattern

/-- The class that follows an opening bracket, and its length up to and with the closing bracket. A
class holds at least one character, which may be a closing bracket. -/
def readClass? : List Char → Option (Token × Nat)
  | '!' :: c :: text => closed true c text 3
  | '!' :: [] => none
  | c :: text => closed false c text 2
  | [] => none
where
  /-- The class of `c` and what follows it, closed by a bracket. -/
  closed (negated : Bool) (c : Char) (text : List Char) (extra : Nat) : Option (Token × Nat) :=
    let content := text.takeWhile (· != ']')
    if content.length < text.length then
      some (.oneOf negated (CharRange.ofSpelling (c :: content)), content.length + extra)
    else none

/-- The tokens of a pattern. `skip` characters belong to a token that was read before, and
`afterSlash` says that a segment begins here. -/
def parseFrom : (skip : Nat) → (afterSlash : Bool) → List Char → Option (List Token)
  | _, _, [] => some []
  | skip + 1, afterSlash, _ :: text => parseFrom skip afterSlash text
  | 0, afterSlash, '*' :: '*' :: text =>
    -- A `**` that is not a whole segment is an error rather than two stars.
    if !afterSlash then none
    else
      match text with
      | [] => some [.anySegments]
      -- The slash is part of the token, so that no segments at all leave no slash behind.
      | '/' :: _ => (parseFrom 1 true text).map (.anySegments :: ·)
      | _ => none
  | 0, _, '*' :: text => (parseFrom 0 false text).map (.anyRun :: ·)
  | 0, _, '?' :: text => (parseFrom 0 false text).map (.anyChar :: ·)
  | 0, _, '[' :: text =>
    match readClass? text with
    | none => none
    | some (token, length) => (parseFrom length false text).map (token :: ·)
  | 0, _, c :: text => (parseFrom 0 (c == '/') text).map (.literal c :: ·)

/-- The pattern that a text spells. `**` has to be a whole segment, and a class has to be closed. -/
def parse? (text : String) : Option Pattern :=
  (parseFrom 0 true text.toList).map Pattern.mk

/-- Whether a run of characters within a segment can be followed by what `next` accepts. -/
def runThen (next : List Char → Bool) : List Char → Bool
  | [] => next []
  | c :: text => next (c :: text) || (c != '/' && runThen next text)

/-- Whether what `next` accepts follows the end of a segment, or nothing at the end of the path. -/
def segmentsThen (next : List Char → Bool) : List Char → Bool
  | [] => next []
  | c :: text => (c == '/' && next text) || segmentsThen next text

end Pattern

namespace Token

/-- Whether a token and then what `next` accepts make up a path. -/
def fits (token : Token) (next : List Char → Bool) (path : List Char) : Bool :=
  match token with
  | .anyRun => Pattern.runThen next path
  -- No segment, or what comes after some slash; the end of the path counts as one.
  | .anySegments => next path || Pattern.segmentsThen next path
  | .literal expected =>
    match path with
    | c :: rest => c == expected && next rest
    | [] => false
  | .anyChar =>
    match path with
    | c :: rest => c != '/' && next rest
    | [] => false
  | .oneOf negated ranges =>
    match path with
    | c :: rest => c != '/' && (ranges.any (·.holds c) != negated) && next rest
    | [] => false

end Token

namespace Pattern

def fitsTokens : List Token → List Char → Bool
  | [], path => path.isEmpty
  | token :: tokens, path => token.fits (fitsTokens tokens) path

/-- Whether a path, spelled with single slashes, fits a pattern. -/
def fits (pattern : Pattern) (path : List Char) : Bool :=
  fitsTokens pattern.tokens path

end Pattern

end AutoImport.Glob
