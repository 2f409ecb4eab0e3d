import DirectoryTables.Text.Blank
import DirectoryTables.Text.Case
import DirectoryTables.Text.Affix
import DirectoryTables.Text.Numeral

/-!
# Column types

The types a column can have, whatever the database calls them.  `ColumnType.parse` reads the text
of a type: it knows the spellings the planner reasons about, in any letter case, and keeps every
other text as it is.  Character columns follow one size rule (`ColumnType.character`).
-/

namespace DirectoryTables

/-- A column type, independent of the database. -/
inductive ColumnType where
  /-- Characters, at most `size` of them. -/
  | varchar (size : UInt32)
  /-- Text of at most 255 characters. -/
  | mediumText
  /-- Text without a bound. -/
  | text
  | boolean
  | integer
  | bigInt
  /-- A JSON document. -/
  | json
  /-- An array of a type. -/
  | array (element : ColumnType)
  /-- A type named by its SQL text. -/
  | other (sql : String)
  deriving DecidableEq, Inhabited

namespace ColumnType

/-! ### Reading the text of a type -/

/-- The type a word in capitals stands for. -/
def ofKeyword? (word : String) : Option ColumnType :=
  if word = "JSON" ∨ word = "JSONB" then some json
  else if word = "TEXT" ∨ word = "STRING(MAX)" then some text
  else if word = "TINYTEXT" then some mediumText
  else if word = "BOOL" ∨ word = "BOOLEAN" then some boolean
  else if word = "INT" ∨ word = "INTEGER" then some integer
  else if word = "BIGINT" ∨ word = "INT64" then some bigInt
  else none

/-- The size written in `VARCHAR(…)` or `STRING(…)`, blanks around it allowed. -/
def sizeIn? (capitals : List Char) : Option UInt32 :=
  let written := Text.between? "VARCHAR(".toList ")".toList capitals <|>
    Text.between? "STRING(".toList ")".toList capitals
  written.bind fun size => Text.ofSigned? (Text.trim size)

/-- The element type written in `ARRAY<…>`. -/
def elementIn? (capitals : List Char) : Option (List Char) :=
  Text.between? "ARRAY<".toList ">".toList capitals

theorem length_lt_of_elementIn? {cs element : List Char}
    (h : elementIn? (Text.upperChars (Text.trim cs)) = some element) :
    element.length < cs.length := by
  have hlen := congrArg List.length (Text.between?_eq_some_iff.1 h)
  have htrim := Text.trim_length_le cs
  have harray : "ARRAY<".toList.length = 6 := by decide
  simp only [Text.upperChars, List.length_map, List.length_append, harray] at hlen
  omega

/-- The type that characters write.  An element type is read in capitals. -/
def parseChars (cs : List Char) : ColumnType :=
  let capitals := Text.upperChars (Text.trim cs)
  match _h : elementIn? capitals with
  | some element => array (parseChars element)
  | none =>
    match ofKeyword? (String.ofList capitals) with
    | some type => type
    | none =>
      match sizeIn? capitals with
      | some size => varchar size
      | none => other (String.ofList (Text.trim cs))
termination_by cs.length
decreasing_by exact length_lt_of_elementIn? _h

/-- The type that a text writes. -/
def parse (sql : String) : ColumnType :=
  parseChars sql.toList

/-! ### Kinds of types -/

/-- The character type for values of at most `size` characters: up to 127 the size is kept, up to
255 the type is medium text, above that it is text. -/
def character (size : UInt32) : ColumnType :=
  if size ≤ 127 then varchar size else if size ≤ 255 then mediumText else text

/-- Whether a column of the type holds a JSON document or an array. -/
def isJsonCapable : ColumnType → Bool
  | json | array _ => true
  | _ => false

/-- Whether the type is an array. -/
def isArray : ColumnType → Bool
  | array _ => true
  | _ => false

/-- Whether the type is a text or blob type; of a type named by its text, the name decides. -/
def isText : ColumnType → Bool
  | mediumText | text => true
  | other sql =>
    let capitals := Text.upperChars sql.toList
    "TEXT".toList.isSuffixOf capitals || "BLOB".toList.isSuffixOf capitals
  | _ => false

end ColumnType

end DirectoryTables
