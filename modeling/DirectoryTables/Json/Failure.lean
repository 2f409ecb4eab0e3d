import DirectoryTables.Json.Number
import DirectoryTables.Text.Quoted

/-!
# JSON — Failures

Why a text cannot be read as a document.  Either the text stops being JSON (`Fault`), or a value
in it is not of the expected shape (`Mismatch`).  A text is read from left to right, and the first
failure is the one reported.
-/

namespace DirectoryTables.Json

/-- Where a text stops being JSON. -/
inductive Fault where
  | endInList
  | endInObject
  | endInString
  | endInValue
  | expectedColon
  | expectedListEnd
  | expectedObjectEnd
  | expectedWord
  | expectedValue
  | invalidEscape
  | invalidNumber
  | numberTooLarge
  | controlCharacter
  | keyNotString
  | loneSurrogate
  | unfinishedSurrogate
  | trailingComma
  | trailingCharacters
  | tooDeep
  deriving DecidableEq

/-- What is said of a fault. -/
def Fault.message : Fault → String
  | endInList => "EOF while parsing a list"
  | endInObject => "EOF while parsing an object"
  | endInString => "EOF while parsing a string"
  | endInValue => "EOF while parsing a value"
  | expectedColon => "expected `:`"
  | expectedListEnd => "expected `,` or `]`"
  | expectedObjectEnd => "expected `,` or `\x7d`"
  | expectedWord => "expected ident"
  | expectedValue => "expected value"
  | invalidEscape => "invalid escape"
  | invalidNumber => "invalid number"
  | numberTooLarge => "number out of range"
  | controlCharacter => "control character (\\u0000-\\u001F) found while parsing a string"
  | keyNotString => "key must be a string"
  | loneSurrogate => "lone leading surrogate in hex escape"
  | unfinishedSurrogate => "unexpected end of hex escape"
  | trailingComma => "trailing comma"
  | trailingCharacters => "trailing characters"
  | tooDeep => "recursion limit exceeded"

/-- A value as it is named when it is not of the expected type. -/
inductive Found where
  | null
  | boolean (b : Bool)
  | number (n : Number)
  | string (s : String)
  | sequence
  | map

/-- The name of a found value. -/
def Found.message : Found → String
  | null => "null"
  | boolean true => "boolean `true`"
  | boolean false => "boolean `false`"
  | number (.integer n) => "integer `" ++ integerText n ++ "`"
  | number (.float x) => "floating point `" ++ floatText x ++ "`"
  | string s => "string " ++ Text.quoted s
  | sequence => "sequence"
  | map => "map"

/-- What a value is expected to be. -/
inductive Expected where
  | string
  | boolean
  | word
  | sequence
  | map
  | unit
  | record (name : String)
  deriving DecidableEq

/-- The name of an expected value. -/
def Expected.message : Expected → String
  | string => "a string"
  | boolean => "a boolean"
  | word => "u32"
  | sequence => "a sequence"
  | map => "a map"
  | unit => "unit"
  | record name => "struct " ++ name

/-- How a value differs from the expected shape. -/
inductive Mismatch where
  | wrongType (found : Found) (expected : Expected)
  /-- An integer that does not fit in 32 bits. -/
  | wordRange (n : Int)
  | duplicateField (name : String)
  | missingField (name : String)
  /-- A list of `length` values for a record of `fields` fields. -/
  | tooShort (record : String) (length fields : Nat)
  /-- A list of `length` values where only `fields` are looked at. -/
  | tooLong (length fields : Nat)
  | unknownVariant (name : String) (known : List String)
  /-- A text that the reader of its meaning refuses. -/
  | refused (reason : String)

/-- Why a text cannot be read as a document. -/
inductive Failure where
  | fault (f : Fault)
  | mismatch (m : Mismatch)

end DirectoryTables.Json
