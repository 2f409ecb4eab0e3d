import DirectoryTables.Decimal.Shortest
import DirectoryTables.Text.Numeral

/-!
# JSON — Numbers

A JSON number is an integer when it is written without fraction and exponent, fits in 64 bits, and
is not `-0`; every other number is a double.  The digits of a number are gathered into a
significand of 64 bits and a power of ten (`Scientific`), which double arithmetic then multiplies.
-/

namespace DirectoryTables.Json

/-- A JSON number. -/
inductive Number where
  | integer (n : Int)
  | float (x : Float)
  deriving Inhabited

/-! ### Reading digits -/

/-- The number `significand · 10 ^ exponent`; `full` once a digit did not fit in 64 bits. -/
structure Scientific where
  significand : Nat := 0
  exponent : Int := 0
  full : Bool := false

namespace Scientific

/-- Whether a further digit still fits in 64 bits. -/
def fits (s : Scientific) (c : Char) : Bool :=
  10 * s.significand + Text.digitValue c < UInt64.size

/-- A further digit before the point.  Once one did not fit, digits only count as places. -/
def addWhole (s : Scientific) (c : Char) : Scientific :=
  if !s.full && s.fits c then
    { s with significand := 10 * s.significand + Text.digitValue c }
  else
    { s with exponent := s.exponent + 1, full := true }

/-- A further digit behind the point.  Once one did not fit, digits are dropped. -/
def addFraction (s : Scientific) (c : Char) : Scientific :=
  if !s.full && s.fits c then
    { s with significand := 10 * s.significand + Text.digitValue c, exponent := s.exponent - 1 }
  else
    { s with full := true }

/-- The powers of ten that a double holds. -/
def powerOfTen (n : Nat) : Float :=
  Float.ofScientific 1 false n

/-- A double divided by `10 ^ n`, in steps that keep each power a double. -/
def divide (x : Float) (n : Nat) : Float :=
  if n ≤ 308 then x / powerOfTen n
  else if x == 0 then x
  else divide (x / powerOfTen 308) (n - 308)
termination_by n

/-- The double for the number; there is none when it is too large. -/
def toFloat? (s : Scientific) : Option Float :=
  let x := (UInt64.ofNat s.significand).toFloat
  if s.exponent < 0 then some (divide x (-s.exponent).toNat)
  else if s.exponent ≤ 308 then
    let y := x * powerOfTen s.exponent.toNat
    if y.isInf then none else some y
  else if x == 0 then some x
  else none

end Scientific

/-! ### The text of a double -/

/-- A double in the fewest digits that read back: with a point and at least one digit behind it
from `0.00001` up to sixteen digits before the point, else with an exponent that has a sign. -/
def floatText (x : Float) : String :=
  let bits := x.toBits.toNat
  let sign := if Decimal.signBit ≤ bits then "-" else ""
  if bits % Decimal.signBit = 0 then sign ++ "0.0"
  else
    let d := Decimal.shortest (.ofBits bits)
    let digits := Nat.toDigits 10 d.digits
    -- the place of the point, counted from the first digit
    let point : Int := digits.length + d.exponent
    let zeros (n : Int) : List Char := List.replicate n.toNat '0'
    let cs :=
      if 0 ≤ d.exponent && point ≤ 16 then digits ++ zeros d.exponent ++ ".0".toList
      else if 0 < point && point ≤ 16 then
        digits.take point.toNat ++ '.' :: digits.drop point.toNat
      else if -5 < point && point ≤ 0 then "0.".toList ++ zeros (-point) ++ digits
      else
        let power := point - 1
        let exponent := (if power < 0 then '-' else '+') :: Nat.toDigits 10 power.natAbs
        match digits with
        | [only] => only :: 'e' :: exponent
        | first :: rest => first :: '.' :: rest ++ 'e' :: exponent
        | [] => exponent
    sign ++ String.ofList cs

/-- The digits of an integer, after a minus sign for a negative one. -/
def integerText (n : Int) : String :=
  (if n < 0 then "-" else "") ++ Text.decimal n.natAbs

end DirectoryTables.Json
