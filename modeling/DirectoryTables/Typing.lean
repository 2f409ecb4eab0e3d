import DirectoryTables.Config
import DirectoryTables.Directory

/-!
# Typing

The type of an attribute as a column of a table (`columnType`), and the type of one of its values
in a subtable (`valueType`).  An explicit type comes first: one given for the table and the
attribute, then one for the attribute, under the name in use before the canonical one, then the
attribute's own.  Without one the syntax decides, and the size rule for character types.
-/

namespace DirectoryTables.Typing

/-! ### Syntaxes -/

/-- The identifier of a standard syntax. -/
def standardSyntax (number : String) : String :=
  "1.3.6.1.4.1.1466.115.121.1." ++ number

/-- Types of texts. -/
def stringTypes : DialectTypes := .all (.sized "VARCHAR" 64)

/-- Types of names of entries. -/
def entryNameTypes : DialectTypes := .all (.sized "VARCHAR" 128)

/-- Types of postal addresses. -/
def addressTypes : DialectTypes := .all (.sized "VARCHAR" 255)

/-- Types of truth values. -/
def booleanTypes : DialectTypes where
  mysql := some (.plain "SMALLINT")
  pgsql := some (.plain "BOOLEAN")
  spanner := some (.plain "BOOL")

/-- Types of integers. -/
def integerTypes : DialectTypes := .all (.plain "INT")

/-- Types of times. -/
def timeTypes : DialectTypes where
  mysql := some (.sized "DATETIME" 3)
  pgsql := some (.plain "TIMESTAMP")
  spanner := some (.plain "TIMESTAMP")

/-- Types of bytes. -/
def binaryTypes : DialectTypes where
  mysql := some (.plain "BLOB")
  pgsql := some (.plain "BYTEA")
  spanner := some (.plain "BYTES(MAX)")

/-- Types of JSON documents. -/
def jsonTypes : DialectTypes := .all (.plain "JSON")

/-- The types of the known syntaxes, under their identifiers in lower case. -/
def knownSyntaxes : Dict DialectTypes :=
  .ofPairs <|
    ["15", "26", "44", "36", "38", "50", "22", "11"].map (standardSyntax ·, stringTypes) ++
    [(standardSyntax "12", entryNameTypes), (standardSyntax "41", addressTypes),
      (standardSyntax "7", booleanTypes), (standardSyntax "27", integerTypes),
      (standardSyntax "24", timeTypes)] ++
    ["5", "28", "40"].map (standardSyntax ·, binaryTypes) ++
    [("string", stringTypes), ("dn", entryNameTypes), ("boolean", booleanTypes),
      ("integer", integerTypes), ("datetime", timeTypes), ("binary", binaryTypes),
      ("json", jsonTypes)]

/-- The types of all syntaxes: configured ones replace known ones. -/
def syntaxes (c : Config) : Dict DialectTypes :=
  knownSyntaxes.insertAll (c.syntaxTypes.entries.map fun (id, types) => (Text.lower id, types))

/-- The entry for the syntax of an attribute. -/
def syntaxEntry? (c : Config) (a : Attribute) : Option TypeEntry := do
  let types ← (syntaxes c).get? (Text.lower (← a.syntaxId))
  types.forDialect c.dialect

/-- The character type of a size, text without one. -/
def sizedText : Option UInt32 → ColumnType
  | some size => .character size
  | none => .text

/-- The type of one value by the syntax of the attribute.  The attribute's own size comes before
the size of the syntax, and counts for character types and unknown syntaxes. -/
def syntaxType (c : Config) (a : Attribute) : ColumnType :=
  match syntaxEntry? c a with
  | some e => if e.isCharacter then sizedText (a.size <|> e.size) else e.columnType
  | none => sizedText a.size

/-! ### Explicit types -/

/-- The names under which an explicit type is looked for. -/
def overrideNames (d : Directory) (name : String) : List String :=
  let canonical := d.canonical name
  if canonical = name then [name] else [name, canonical]

/-- The explicit types of an attribute in a table, in the order in which they count. -/
def explicitSources (d : Directory) (c : Config) (name table : String) : List DialectTypes :=
  let names := overrideNames d name
  names.filterMap (fun n => c.typeOverrides.get? (table ++ ":" ++ n)) ++
    names.filterMap (fun n => c.typeOverrides.get? n) ++
    ((d.attribute? name).bind Attribute.sql).toList

/-- The explicit type of an attribute in a table: the first source with an entry for the dialect
gives it. -/
def explicitType? (d : Directory) (c : Config) (name table : String) : Option ColumnType :=
  let entry := (explicitSources d c name table).findSome? (·.forDialect c.dialect)
  entry.map fun e => (e.forTable table).columnType

/-! ### Types of columns and values -/

/-- The type of an attribute as a column of a table. -/
def columnType (d : Directory) (c : Config) (name table : String) : ColumnType :=
  match explicitType? d c name table with
  | some type => type
  | none =>
    match d.attribute? name with
    | some a =>
      if a.multivalued then c.backend.collectionType (syntaxType c a) else syntaxType c a
    | none => .text

/-- The type of one value by the syntax of an attribute, text for an unknown one. -/
def plainValueType (d : Directory) (c : Config) (name : String) : ColumnType :=
  match d.attribute? name with
  | some a => syntaxType c a
  | none => .text

/-- The type of one value of an attribute in a subtable of a table. -/
def valueType (d : Directory) (c : Config) (name table : String) : ColumnType :=
  match explicitType? d c name table with
  | some (.array element) => element
  | some .json | none => plainValueType d c name
  | some type => type

end DirectoryTables.Typing
