import DirectoryTables.Backend
import DirectoryTables.TypeEntry

/-!
# Configuration

What a plan depends on besides the directory and the index policy.
-/

namespace DirectoryTables

/-- The configuration of a plan. -/
structure Config where
  dialect : Dialect := .mysql
  /-- The version of the server; without one the server counts as current. -/
  version : Option Version := none
  /-- The table whose `uid` is unique. -/
  personTable : String := "gluuPerson"
  /-- The classes whose attributes are not inherited. -/
  rootClasses : List String := ["top"]
  /-- Types of attributes, under `table:attribute` or `attribute`. -/
  typeOverrides : Dict DialectTypes := .empty
  /-- Types of syntaxes, in addition to the known ones. -/
  syntaxTypes : Dict DialectTypes := .empty
  /-- The attributes that the directory itself indexes. -/
  indexedAttributes : List String := []
  /-- How many characters of a text column are indexed where not all can be. -/
  textPrefixLength : UInt32 := 255
  /-- How many positions of an array get a shadow column. -/
  shadowPositions : UInt32 := 4
  /-- The size of a shadow column. -/
  shadowSize : UInt32 := 128
  /-- The path of the values in the JSON document of a collection. -/
  jsonArrayPath : String := "$.v"
  deriving Inhabited

namespace Config

/-- The backend that is planned for. -/
def backend (c : Config) : Backend :=
  { dialect := c.dialect, version := c.version }

/-- Whether a class is a root class, letter case aside. -/
def isRootClass (c : Config) (name : String) : Bool :=
  Text.listsName c.rootClasses name

/-- The configuration for a known server version. -/
def withVersion (c : Config) (v : Version) : Config :=
  { c with version := some v }

/-- The configuration with the types of an attribute, under `table:attribute` or `attribute`, in
place of those it had. -/
def withTypeOverride (c : Config) (key : String) (types : DialectTypes) : Config :=
  { c with typeOverrides := c.typeOverrides.insert key types }

/-- The configuration with the types of a syntax, in place of those it had. -/
def withSyntaxType (c : Config) (syntaxId : String) (types : DialectTypes) : Config :=
  { c with syntaxTypes := c.syntaxTypes.insert syntaxId types }

end Config

end DirectoryTables
