/-!
# Text — Numeral

Decimal numerals for numbers of 32 bits.  A numeral is one digit or more, `0` to `9` only; leading
zeros are allowed, and a number that needs more than 32 bits is refused (`ofDigits?`).  A size
inside a type name may carry one plus sign (`ofSigned?`).
-/

namespace DirectoryTables.Text

/-- The value of a decimal digit. -/
def digitValue (c : Char) : Nat :=
  c.toNat - 48

/-- The number a row of decimal digits stands for. -/
def decimalValue (cs : List Char) : Nat :=
  cs.foldl (fun n c => 10 * n + digitValue c) 0

/-- The 32-bit number written by one decimal digit or more. -/
def ofDigits? (cs : List Char) : Option UInt32 :=
  if cs ≠ [] ∧ cs.all Char.isDigit = true ∧ decimalValue cs < UInt32.size then
    some (UInt32.ofNat (decimalValue cs))
  else
    none

/-- The 32-bit number written by digits after at most one plus sign. -/
def ofSigned? : List Char → Option UInt32
  | '+' :: cs => ofDigits? cs
  | cs => ofDigits? cs

/-- The digits of a number in base ten, without leading zeros. -/
def decimal (n : Nat) : String :=
  String.ofList (Nat.toDigits 10 n)

/-- The digits of a 32-bit number. -/
def decimal32 (n : UInt32) : String :=
  decimal n.toNat

end DirectoryTables.Text
