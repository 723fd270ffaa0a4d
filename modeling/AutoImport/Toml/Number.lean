import AutoImport.Text.Search
import AutoImport.Toml.Basic

/-!
# Numbers and moments in TOML

Reading what starts with a digit or a sign. Whole numbers have sixty-four bits with a sign; of other
numbers and of moments only their form matters here.
-/

namespace AutoImport.Toml

open Text

/-! ## Digits -/

/-- The digits at the start of a text, between which single underscores may stand, and what follows
them. -/
def readMoreDigits (isDigit : Char → Bool) : List Char → List Char × List Char
  | [] => ([], [])
  | '_' :: c :: rest =>
    if isDigit c then
      let (digits, rest) := readMoreDigits isDigit rest
      (c :: digits, rest)
    else ([], '_' :: c :: rest)
  | c :: rest =>
    if isDigit c then
      let (digits, rest) := readMoreDigits isDigit rest
      (c :: digits, rest)
    else ([], c :: rest)

/-- One or more digits, between which single underscores may stand, and what follows them. -/
def readDigits? (isDigit : Char → Bool) : List Char → Option (List Char × List Char)
  | [] => none
  | c :: rest =>
    if isDigit c then
      let (digits, rest) := readMoreDigits isDigit rest
      some (c :: digits, rest)
    else none

def digitValue (c : Char) : Nat :=
  if c.isDigit then c.toNat - '0'.toNat else c.toLower.toNat - 'a'.toNat + 10

/-- The number that digits stand for in a base. -/
def numberOf (base : Nat) (digits : List Char) : Nat :=
  digits.foldl (fun number c => base * number + digitValue c) 0

def readSign : List Char → Bool × List Char
  | '-' :: rest => (true, rest)
  | '+' :: rest => (false, rest)
  | text => (false, text)

/-- The digits of a whole number, which has no needless zero in front, and what follows them. -/
def readWhole? : List Char → Option (List Char × List Char)
  | '0' :: rest => some (['0'], rest)
  | text => readDigits? Char.isDigit text

/-! ## Whole numbers -/

/-- A whole number that has sixty-four bits with a sign. -/
def boundedInteger? (number : Int) : Option Toml :=
  let limit : Int := (1 <<< 63 : Nat)
  if -limit ≤ number && number < limit then some (.integer number) else none

def isHexDigit (c : Char) : Bool :=
  c.isDigit || ('a' ≤ c && c ≤ 'f') || ('A' ≤ c && c ≤ 'F')

/-- A whole number in a base other than ten, and what follows it. -/
def readBased? (base : Nat) (isDigit : Char → Bool) (text : List Char) :
    Option (Toml × List Char) := do
  let (digits, rest) ← readDigits? isDigit text
  some (← boundedInteger? (numberOf base digits), rest)

def readInteger? : List Char → Option (Toml × List Char)
  | '0' :: 'x' :: rest => readBased? 16 isHexDigit rest
  | '0' :: 'o' :: rest => readBased? 8 (fun c => '0' ≤ c && c ≤ '7') rest
  | '0' :: 'b' :: rest => readBased? 2 (fun c => c == '0' || c == '1') rest
  | text => do
    let (negative, rest) := readSign text
    let (digits, rest) ← readWhole? rest
    let size : Int := numberOf 10 digits
    some (← boundedInteger? (if negative then -size else size), rest)

/-! ## Other numbers -/

/-- The least number that is too large for a binary number of sixty-four bits. -/
def leastInfinite : Nat :=
  1 <<< 1024 - 1 <<< 970

/-- Whether a number `digits * 10 ^ exponent` is too large for a binary number of sixty-four bits. -/
def isInfinite (digits : List Char) (exponent : Int) : Bool :=
  let size := numberOf 10 digits
  let places : Int := (Nat.toDigits 10 size).length + exponent
  -- The powers are only compared where the number of digits leaves it open.
  if size == 0 || places < 300 then false
  else if places > 310 then true
  else leastInfinite * Nat.pow 10 (-exponent).toNat ≤ size * Nat.pow 10 exponent.toNat

def readFraction? : List Char → Option (List Char × List Char)
  | '.' :: rest => readDigits? Char.isDigit rest
  | _ => none

def readExponent? : List Char → Option (Int × List Char)
  | c :: rest =>
    if c == 'e' || c == 'E' then do
      let (negative, rest) := readSign rest
      let (digits, rest) ← readDigits? Char.isDigit rest
      let size : Int := numberOf 10 digits
      some (if negative then -size else size, rest)
    else none
  | [] => none

/-- A number with a fraction or an exponent, and what follows it. -/
def readReal? (text : List Char) : Option (Toml × List Char) := do
  let (negative, rest) := readSign text
  match dropPrefix? ['i', 'n', 'f'] rest, dropPrefix? ['n', 'a', 'n'] rest with
  | some rest, _ | _, some rest => some (.real, rest)
  | none, none =>
    let (whole, rest) ← readWhole? rest
    let fraction? := readFraction? rest
    let afterFraction := (fraction?.map Prod.snd).getD rest
    let exponent? := readExponent? afterFraction
    if fraction?.isNone && exponent?.isNone then none
    else
      let fraction := (fraction?.map Prod.fst).getD []
      let exponent := (exponent?.map Prod.fst).getD 0
      -- A negative number that is too large is read as minus infinity.
      if !negative && isInfinite (whole ++ fraction) (exponent - fraction.length) then none
      else some (.real, (exponent?.map Prod.snd).getD afterFraction)

/-! ## Moments -/

/-- A number of exactly so many digits between two bounds, and what follows it. -/
def readField? (width least most : Nat) (text : List Char) : Option (Nat × List Char) :=
  let digits := text.take width
  let number := numberOf 10 digits
  if digits.length == width && digits.all Char.isDigit && least ≤ number && number ≤ most then
    some (number, text.drop width)
  else none

def daysOf (year month : Nat) : Nat :=
  if month == 2 then
    if (year % 4 == 0 && year % 100 != 0) || year % 400 == 0 then 29 else 28
  else if month == 4 || month == 6 || month == 9 || month == 11 then 30
  else 31

def afterDate? (text : List Char) : Option (List Char) := do
  let (year, rest) ← readField? 4 0 9999 text
  let (month, rest) ← readField? 2 1 12 (← dropPrefix? ['-'] rest)
  let (_, rest) ← readField? 2 1 (daysOf year month) (← dropPrefix? ['-'] rest)
  some rest

/-- What follows the digits after the seconds, if there are any. -/
def afterSecondFraction : List Char → List Char
  | '.' :: c :: rest => if c.isDigit then rest.dropWhile Char.isDigit else '.' :: c :: rest
  | text => text

def afterTime? (text : List Char) : Option (List Char) := do
  let (_, rest) ← readField? 2 0 23 text
  let (_, rest) ← readField? 2 0 59 (← dropPrefix? [':'] rest)
  let (_, rest) ← readField? 2 0 60 (← dropPrefix? [':'] rest)
  some (afterSecondFraction rest)

/-- What follows a distance from the time of the world, if there is one. -/
def afterOffset? : List Char → Option (List Char)
  | [] => some []
  | c :: rest =>
    if c == 'Z' || c == 'z' then some rest
    else if c == '+' || c == '-' then do
      let (_, rest) ← readField? 2 0 23 rest
      let (_, rest) ← readField? 2 0 59 (← dropPrefix? [':'] rest)
      some rest
    else some (c :: rest)

/-- What follows a time after a date, if there is one. -/
def afterDateTime? (text : List Char) : Option (List Char) :=
  match text with
  | [] => some []
  | c :: rest =>
    if c == 'T' || c == 't' || c == ' ' then
      match afterTime? rest with
      | some rest => afterOffset? rest
      -- What follows is no time, so the date stands alone and the blank is not taken.
      | none => some text
    else some text

/-- A date, a time, or both, and what follows it. -/
def readMoment? (text : List Char) : Option (Toml × List Char) :=
  match afterDate? text with
  | some rest => (afterDateTime? rest).map fun rest => (.moment, rest)
  | none => (afterTime? text).map fun rest => (.moment, rest)

/-- A number or a moment, and what follows it. -/
def readNumber? (text : List Char) : Option (Toml × List Char) :=
  -- A moment begins with digits, and so does a real number, so whole numbers come last.
  (readMoment? text).or ((readReal? text).or (readInteger? text))

end AutoImport.Toml
