import DirectoryTables.Text.Blank
import DirectoryTables.Text.Numeral

/-!
# Server versions

A server version is three numbers.  `Version.parse?` reads what servers report, such as `8.0.36`
followed by a vendor's suffix: the digits and points at the start, in groups of digits, of which
the first is needed and missing ones are zero.
-/

namespace DirectoryTables

/-- A server version. -/
structure Version where
  major : UInt32
  minor : UInt32
  patch : UInt32
  deriving DecidableEq, Inhabited

namespace Version

/-- The order of versions: by major number, then minor, then patch. -/
def order (a b : Version) : Ordering :=
  (compare a.major b.major).then ((compare a.minor b.minor).then (compare a.patch b.patch))

/-- Whether `a` comes before `b`. -/
def isBefore (a b : Version) : Bool :=
  a.order b == .lt

/-- The version written as `major.minor.patch`. -/
def text (v : Version) : String :=
  Text.decimal32 v.major ++ "." ++ Text.decimal32 v.minor ++ "." ++ Text.decimal32 v.patch

/-- Whether a character belongs to the numeric start of a version. -/
def isNumeric (c : Char) : Bool :=
  c.isDigit || c == '.'

/-- The groups of digits at the start of a version text. -/
def groups (cs : List Char) : List (List Char) :=
  (((Text.trim cs).takeWhile isNumeric).splitOnP (· == '.')).filter (· ≠ [])

/-- The number of a group; a missing group counts as zero. -/
def part? : Option (List Char) → Option UInt32
  | none => some 0
  | some digits => Text.ofDigits? digits

/-- The version a text starts with; there is none without digits, or when one of the first three
groups does not fit in 32 bits. -/
def parse? (s : String) : Option Version :=
  match groups s.toList with
  | [] => none
  | major :: rest => do
    let major ← Text.ofDigits? major
    let minor ← part? rest[0]?
    let patch ← part? rest[1]?
    return { major, minor, patch }

end Version

end DirectoryTables
