/-!
# Seconds with two decimals

A duration is shown in seconds with two decimals. The seconds are a binary number with 53 significant
digits, and it is this number that is rounded for display; a half goes to the even neighbour both times.
-/

namespace AutoImport.Decimal

/-- A quotient rounded to a natural number, a half to the even neighbour. -/
def roundDiv (numerator denominator : Nat) : Nat :=
  let quotient := numerator / denominator
  let rest := 2 * (numerator % denominator)
  if rest < denominator || (rest == denominator && quotient % 2 == 0) then quotient else quotient + 1

/-- A number `mantissa * 2 ^ -scale`. -/
structure Dyadic where
  mantissa : Nat
  scale : Nat
  deriving DecidableEq, Repr

/-- The nearest binary number with 53 significant digits to a quotient below `2 ^ 53`. -/
def Dyadic.nearest (numerator denominator : Nat) : Dyadic :=
  -- The shift by 200 makes the quotient large enough for its size to be seen in whole numbers.
  let size := (numerator <<< 200 / denominator).log2
  if numerator == 0 then ⟨0, 0⟩
  else
    let scale := 252 - size
    ⟨roundDiv (numerator <<< scale) denominator, scale⟩

/-- The seconds of a duration in milliseconds: its whole seconds and the binary fraction of the rest,
added as binary numbers. -/
def secondsOf (milliseconds : Nat) : Dyadic :=
  let fraction := Dyadic.nearest (milliseconds % 1000) 1000
  Dyadic.nearest ((milliseconds / 1000) <<< fraction.scale + fraction.mantissa) (1 <<< fraction.scale)

/-- A duration in milliseconds as seconds with two decimals. -/
def showSeconds (milliseconds : Nat) : String :=
  let seconds := secondsOf milliseconds
  let hundredths := roundDiv (seconds.mantissa * 100) (1 <<< seconds.scale)
  let places := hundredths % 100
  toString (hundredths / 100) ++ "." ++ (if places < 10 then "0" else "") ++ toString places

end AutoImport.Decimal
