import DirectoryTables.Json.Failure
import DirectoryTables.Text.Affix
import DirectoryTables.Text.Joined

/-!
# JSON — Messages

The text of a failure, without the place where it happened.  A reason given by another reader may
end in a place itself; that place is taken for the failure's own and left out once.
-/

namespace DirectoryTables.Json

/-- A name between grave accents. -/
def marked (name : String) : String :=
  "`" ++ name ++ "`"

/-- How many values of how many fields. -/
def elementCount (n : Nat) : String :=
  Text.decimal n ++ if n = 1 then " element" else " elements"

/-! ### Places at the end of a reason -/

/-- What follows a count of lines or columns, which is a number of 64 bits. -/
def afterCount? (cs : List Char) : Option (List Char) :=
  let digits := cs.takeWhile Char.isDigit
  if digits = [] ∨ UInt64.size ≤ Text.decimalValue digits then none
  else some (cs.drop digits.length)

/-- The text before ` at line n column m`, for a text that ends so. -/
def beforePlace? (cs : List Char) : Option (List Char) := do
  let (reason, cs) ← Text.splitLast? " at line ".toList cs
  let cs ← afterCount? cs
  let cs ← Text.afterPrefix? " column ".toList cs
  let cs ← afterCount? cs
  if cs = [] then some reason else none

/-- A reason without the place at its end. -/
def withoutPlace (reason : String) : String :=
  String.ofList ((beforePlace? reason.toList).getD reason.toList)

/-! ### Messages -/

/-- What is said of a value of the wrong shape. -/
def Mismatch.message : Mismatch → String
  | wrongType found expected =>
    "invalid type: " ++ found.message ++ ", expected " ++ expected.message
  | wordRange n =>
    "invalid value: " ++ (Found.number (.integer n)).message ++ ", expected " ++
      Expected.word.message
  | duplicateField name => "duplicate field " ++ marked name
  | missingField name => "missing field " ++ marked name
  | tooShort record length fields =>
    "invalid length " ++ Text.decimal length ++ ", expected struct " ++ record ++ " with " ++
      elementCount fields
  | tooLong length fields =>
    "invalid length " ++ Text.decimal length ++ ", expected " ++ elementCount fields ++
      " in sequence"
  | unknownVariant name known =>
    "unknown variant " ++ marked name ++ ", expected one of " ++
      Text.commaJoined (known.map marked)
  | refused reason => withoutPlace reason

/-- What is said of a text that cannot be read. -/
def Failure.message : Failure → String
  | fault f => f.message
  | mismatch m => m.message

end DirectoryTables.Json
