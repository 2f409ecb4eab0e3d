import DirectoryTables.FileError
import DirectoryTables.Json.Message

/-!
# Configuration errors

What can be wrong with the documents that describe a schema, its indexes and the configuration.
All of it is found before any statement reaches a database.
-/

namespace DirectoryTables

/-- What a document defines. -/
inductive Definition where
  | attributeType
  | objectClass
  deriving DecidableEq

/-- The word for a definition. -/
def Definition.word : Definition → String
  | attributeType => "attribute"
  | objectClass => "object class"

/-- What is wrong with the documents. -/
inductive ConfigError where
  /-- A class names a parent that is not defined. -/
  | undefinedParent (objectClass parent : String)
  /-- A class merges a class that is not defined. -/
  | undefinedMerge (objectClass merged : String)
  /-- An attribute is kept in a subtable of a table that is not planned. -/
  | unknownSubtableParent (name table : String)
  /-- A definition without names, at a position of its document. -/
  | unnamed (kind : Definition) (position : Nat)
  /-- A document that cannot be read from its text. -/
  | malformed (document : String) (failure : Json.Failure)
  /-- A text that is no server version. -/
  | invalidVersion (text : String)
  /-- A file that cannot be read. -/
  | unreadable (path : String) (cause : FileError)

/-- What is said of a text that is no server version. -/
def invalidVersionMessage (text : String) : String :=
  "invalid server version: " ++ text

/-- What is said of a configuration error. -/
def ConfigError.message : ConfigError → String
  | undefinedParent objectClass parent =>
    "object class " ++ objectClass ++ " references undefined parent " ++ parent
  | undefinedMerge objectClass merged =>
    "object class " ++ objectClass ++ " merges undefined object class " ++ merged
  | unknownSubtableParent name table =>
    "attribute " ++ name ++ " is routed to a subtable of unknown table " ++ table
  | unnamed kind position =>
    kind.word ++ " definition #" ++ Text.decimal position ++ " has no names"
  | malformed document failure => "malformed " ++ document ++ ": " ++ failure.message
  | invalidVersion text => invalidVersionMessage text
  | unreadable path cause => "cannot read " ++ path ++ ": " ++ cause.message

end DirectoryTables
