/-!
# Decimal — Shortest

The fewest decimal digits that read back as a binary floating point number.  A positive number is
`m · 2 ^ q`; the reals that round to it form an interval whose ends belong to it when `m` is even.
Of the grids of multiples of a power of ten, the coarsest with a point in that interval is taken,
and on it the point nearest to the number.
-/

namespace DirectoryTables.Decimal

/-- A finite double other than zero, without its sign: `significand · 2 ^ exponent`. -/
structure Binary where
  significand : Nat
  exponent : Int

/-- The bit of a double that holds its sign, the highest of sixty-four. -/
def signBit : Nat := 0x8000000000000000

/-- The bit above the fifty-two bits of the fraction. -/
def fractionEnd : Nat := 0x10000000000000

/-- The parts of a double, from its bits; the sign is left out. -/
def Binary.ofBits (bits : Nat) : Binary :=
  let fraction := bits % fractionEnd
  let biased := bits % signBit / fractionEnd
  if biased = 0 then { significand := fraction, exponent := -1074 }
  else { significand := fractionEnd + fraction, exponent := Int.ofNat biased - 1075 }

/-- A positive decimal: `digits · 10 ^ exponent`. -/
structure Digits where
  digits : Nat
  exponent : Int

/-- `n · base ^ e` as a quotient of natural numbers. -/
def scaled (n base : Nat) (e : Int) : Nat × Nat :=
  if 0 ≤ e then (n * base.pow e.toNat, 1) else (n, base.pow (-e).toNat)

/-- The point of the grid of multiples of `10 ^ k` that lies in the interval of a number, the
nearest one where both neighbours do. -/
def onGrid? (x : Binary) (k : Int) : Option Digits :=
  let m := 4 * x.significand
  let below := if x.significand = fractionEnd ∧ x.exponent ≠ -1074 then 1 else 2
  let (num, den) := scaled 1 2 (x.exponent - 2)
  let (step, part) := scaled 1 10 k
  -- a multiple `c` of the grid compares with `n` quarters of a unit as `c * grid` with `n * unit`
  let grid := step * den
  let unit := num * part
  let even := x.significand % 2 = 0
  let c := m * unit / grid
  let isIn (c : Nat) : Bool :=
    if even then (m - below) * unit ≤ c * grid && c * grid ≤ (m + 2) * unit
    else (m - below) * unit < c * grid && c * grid < (m + 2) * unit
  let low := c ≠ 0 && isIn c
  let high := isIn (c + 1)
  let down := m * unit - c * grid
  let up := (c + 1) * grid - m * unit
  if low && high then
    if down < up || (down = up && c % 2 = 0) then some ⟨c, k⟩ else some ⟨c + 1, k⟩
  else if low then some ⟨c, k⟩
  else if high then some ⟨c + 1, k⟩
  else none

/-- The shortest decimal that reads back as the number. -/
def shortest (x : Binary) : Digits :=
  let found := (List.range 660).findSome? fun (i : Nat) => onGrid? x (310 - (i : Int))
  found.getD ⟨x.significand, x.exponent⟩

end DirectoryTables.Decimal
