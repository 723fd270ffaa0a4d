import AutoImport.Text.Search
import AutoImport.Text.Utf8

/-!
# Patterns of ignore files

The patterns that ignore files are written in. They are matched against the bytes of a path, so `?` and
a class stand for one byte. `**` stands for whole segments where it is a segment of its own, and
alternatives may be given in braces.
-/

namespace AutoImport.Ignore

open Text

def slash : UInt8 := 47

/-- A part of a pattern. -/
inductive Token where
  | literal (c : Char)
  | anyByte
  | anyRun
  | leadingSegments
  | trailingSegments
  /-- Any segments between two others, or none. -/
  | middleSegments
  /-- A byte of one of the ranges, or of none of them when `negated`. -/
  | oneOf (negated : Bool) (ranges : List (Char × Char))
  /-- One of several patterns. -/
  | alternatives (options : List (List Token))
  deriving Repr, Inhabited

inductive ClassReading where
  /-- A class and its length up to and with the closing bracket. -/
  | closed (token : Token) (length : Nat)
  | unclosed
  | invalid

/-- Reads the rest of a class. `ranges` are those read so far, last first, `first` says that there are
none yet, and `inRange` that a hyphen came last. -/
def readRanges (negated : Bool) : (length : Nat) → (first inRange : Bool) →
    (ranges : List (Char × Char)) → List Char → ClassReading
  | _, _, _, _, [] => .unclosed
  | length, first, inRange, ranges, c :: text =>
    -- A bracket in first place is a character of the class, and a hyphen at either end as well.
    if c == ']' && !first then
      .closed (.oneOf negated ((if inRange then ('-', '-') :: ranges else ranges).reverse)) (length + 1)
    else if c == '-' && !first && !inRange then
      readRanges negated (length + 1) false true ranges text
    else if inRange then
      match ranges with
      | (low, _) :: others =>
        if c < low then .invalid
        else readRanges negated (length + 1) false false ((low, c) :: others) text
      | [] => .invalid
    else readRanges negated (length + 1) false false ((c, c) :: ranges) text

def readClass : List Char → ClassReading
  | '!' :: text => readRanges true 1 true false [] text
  | '^' :: text => readRanges true 1 true false [] text
  | text => readRanges false 0 true false [] text

/-- What is read of a group of alternatives: the finished ones and the tokens of the current one, last
first. -/
structure Group where
  finished : List (List Token)
  current : List Token

namespace Group

def fresh : Group :=
  ⟨[], []⟩

def push (group : Group) (token : Token) : Group :=
  { group with current := token :: group.current }

def next (group : Group) : Group :=
  ⟨group.finished ++ [group.current.reverse], []⟩

def close (group : Group) : Token :=
  .alternatives (group.finished ++ [group.current.reverse])

/-- The group with `**` between other segments. It takes the place of the slash before it, and one that
follows another such token adds nothing. -/
def pushSegments (group : Group) (atEnd : Bool) : Group :=
  match group.current with
  | .leadingSegments :: _ => group
  | .trailingSegments :: _ => group
  -- The token that goes is the slash that was read just before the stars.
  | _ :: others =>
    { group with current := (if atEnd then Token.trailingSegments else .middleSegments) :: others }
  | [] => group

end Group

inductive DoubleStar where
  | plain
  | leading
  | middle
  | trailing

/-- What `**` stands for, by whether the current alternative is still empty, the character before it,
whether it stands in a group, and the text after it. -/
def doubleStar (isFirst : Bool) (before : Option Char) (nested : Bool) (text : List Char) : DoubleStar :=
  let next := text.head?
  if isFirst then
    if next == none || next == some '/' then .leading else .plain
  else if before != some '/' && (!nested || (before != some ',' && before != some '{')) then .plain
  else
    match next with
    | none => .trailing
    | some '/' => .middle
    | some ',' => if nested then .trailing else .plain
    | some '}' => if nested then .trailing else .plain
    | some _ => .plain

/-- Reads a pattern. `outer` are the open groups around `group`, `before` is the character that was
read last, and `skip` characters belong to a token that was read before. -/
def parseFrom : (skip : Nat) → (before : Option Char) → (outer : List Group) → (group : Group) →
    List Char → Option (List Token)
  | _, _, [], group, [] => some group.current.reverse
  | _, _, _ :: _, _, [] => none
  | skip + 1, _, outer, group, c :: text => parseFrom skip (some c) outer group text
  | 0, before, outer, group, '*' :: '*' :: text =>
    match doubleStar group.current.isEmpty before (!outer.isEmpty) text with
    | .plain => parseFrom 0 (some '*') outer ((group.push .anyRun).push .anyRun) text
    | .leading => parseFrom 1 (some '*') outer (group.push .leadingSegments) text
    -- The slash after the stars belongs to the token and is skipped.
    | .middle => parseFrom 1 (some '*') outer (group.pushSegments false) text
    | .trailing => parseFrom 0 (some '*') outer (group.pushSegments true) text
  | 0, _, outer, group, '\\' :: c :: text => parseFrom 0 (some c) outer (group.push (.literal c)) text
  | 0, _, outer, group, c :: text =>
    if c == '?' then parseFrom 0 (some c) outer (group.push .anyByte) text
    else if c == '*' then parseFrom 0 (some c) outer (group.push .anyRun) text
    else if c == '[' then
      match readClass text with
      | .closed token length => parseFrom length (some c) outer (group.push token) text
      | .unclosed => parseFrom 0 (some c) outer (group.push (.literal c)) text
      | .invalid => none
    else if c == '{' then parseFrom 0 (some c) (group :: outer) .fresh text
    else if c == '}' then
      match outer with
      | [] => none
      | around :: outer => parseFrom 0 (some c) outer (around.push group.close) text
    else if c == ',' && !outer.isEmpty then parseFrom 0 (some c) outer group.next text
    else if c == '\\' then none
    else parseFrom 0 (some c) outer (group.push (.literal c)) text

def parse? (pattern : List Char) : Option (List Token) :=
  parseFrom 0 none [] .fresh pattern

/-- What is left of a path after the given bytes, if it begins with them. -/
def dropBytes? : (start path : List UInt8) → Option (List UInt8)
  | [], path => some path
  | _ :: _, [] => none
  | b :: start, c :: path => if b == c then dropBytes? start path else none

/-- Whether a run of bytes within a segment can be followed by what `next` accepts. -/
def runThen (next : List UInt8 → Bool) : List UInt8 → Bool
  | [] => next []
  | b :: path => next (b :: path) || (b != slash && runThen next path)

/-- Whether what `next` accepts comes right after some slash. -/
def afterSlash (next : List UInt8 → Bool) : List UInt8 → Bool
  | [] => false
  | b :: path => (b == slash && next path) || afterSlash next path

/-- Whether any bytes can be followed by what `next` accepts. -/
def anythingThen (next : List UInt8 → Bool) : List UInt8 → Bool
  | [] => next []
  | b :: path => next (b :: path) || anythingThen next path

/-- The byte ranges of a class: the bytes of each character stand for themselves, and a range joins
the last byte of its first character and the first byte of its last one. -/
def byteRanges (low high : Char) : List (UInt8 × UInt8) :=
  if low == high then (bytesOf [low]).map fun b => (b, b)
  else
    let lows := bytesOf [low]
    let highs := bytesOf [high]
    lows.dropLast.map (fun b => (b, b)) ++ [(lows.getLastD 0, highs.headD 0)] ++
      highs.tail.map fun b => (b, b)

def inClass (ranges : List (Char × Char)) (b : UInt8) : Bool :=
  (ranges.flatMap fun (low, high) => byteRanges low high).any fun (low, high) => low ≤ b && b ≤ high

mutual

/-- Whether a token and then what `next` accepts make up a path. -/
def Token.fits (next : List UInt8 → Bool) (path : List UInt8) : Token → Bool
  | .literal c =>
    match dropBytes? (bytesOf [c]) path with
    | some rest => next rest
    | none => false
  | .anyByte =>
    match path with
    | b :: rest => b != slash && next rest
    | [] => false
  | .anyRun => runThen next path
  | .leadingSegments => next path || afterSlash next path
  | .trailingSegments =>
    match path with
    | b :: rest => b == slash && anythingThen next rest
    | [] => false
  | .middleSegments =>
    match path with
    | b :: rest => b == slash && (next rest || afterSlash next rest)
    | [] => false
  | .oneOf negated ranges =>
    match path with
    | b :: rest => (inClass ranges b != negated) && next rest
    | [] => false
  | .alternatives options =>
    -- Only a group of nothing but empty options stands for the empty text.
    if options.all List.isEmpty then next path else fitsOption next path options

/-- Whether tokens and then what `next` accepts make up a path. -/
def fitsTokens (next : List UInt8 → Bool) (path : List UInt8) : List Token → Bool
  | [] => next path
  | token :: tokens => token.fits (fun rest => fitsTokens next rest tokens) path

/-- Whether one of several patterns and then what `next` accepts make up a path. Empty patterns are
passed over. -/
def fitsOption (next : List UInt8 → Bool) (path : List UInt8) : List (List Token) → Bool
  | [] => false
  | option :: options =>
    (!option.isEmpty && fitsTokens next path option) || fitsOption next path options

end

def Token.isLiteral : Token → Bool
  | .literal _ => true
  | _ => false

def Token.isChar (c : Char) : Token → Bool
  | .literal d => c == d
  | _ => false

/-- Whether a path is written out by a pattern, perhaps up to the segments in front. A path that ends
with a dot has no name to go by, so a pattern that ends with a dot only fits it in this case. -/
def isWrittenOut : List Token → Bool
  | .leadingSegments :: tokens => tokens.all Token.isLiteral && tokens.any (Token.isChar '/')
  | tokens => tokens.all Token.isLiteral

/-- Whether a path fits a pattern. -/
def fits (tokens : List Token) (path : List Char) : Bool :=
  match tokens with
  | [.leadingSegments] => true
  | _ =>
    if path.getLast? == some '.' && (tokens.getLast?.map (Token.isChar '.')).getD false &&
        !isWrittenOut tokens then false
    else fitsTokens List.isEmpty (bytesOf path) tokens

end AutoImport.Ignore
