import DirectoryTables.ColumnType
import DirectoryTables.Dialect
import DirectoryTables.Dict

/-!
# Type entries

Types as documents give them: the name of an SQL type with an optional size, with variants for
single tables (`TypeEntry`), and one such entry for each dialect (`DialectTypes`).  A dialect
without an entry of its own uses the one for MySQL.
-/

namespace DirectoryTables

/-- A type name with an optional size, and the entries that replace it for single tables. -/
inductive TypeEntry where
  | mk (typeName : String) (size : Option UInt32) (tables : Dict TypeEntry)
  deriving Inhabited

namespace TypeEntry

/-- The name of the type. -/
def typeName : TypeEntry → String
  | mk typeName _ _ => typeName

/-- The size written behind the name. -/
def size : TypeEntry → Option UInt32
  | mk _ size _ => size

/-- The entries for single tables. -/
def tables : TypeEntry → Dict TypeEntry
  | mk _ _ tables => tables

/-- An entry without a size. -/
def plain (typeName : String) : TypeEntry :=
  mk typeName none .empty

/-- An entry with a size. -/
def sized (typeName : String) (size : UInt32) : TypeEntry :=
  mk typeName (some size) .empty

/-- The entry with a variant for a table, in place of the one it had. -/
def withTable (e : TypeEntry) (table : String) (variant : TypeEntry) : TypeEntry :=
  mk e.typeName e.size (e.tables.insert table variant)

/-- The variant for a table, or else the entry itself. -/
def forTable (e : TypeEntry) (table : String) : TypeEntry :=
  (e.tables.get? table).getD e

/-- Whether the entry names a character type, to which the size rule applies. -/
def isCharacter (e : TypeEntry) : Bool :=
  let name := Text.upper e.typeName
  name == "VARCHAR" || name == "STRING"

/-- The entry as the text of a type. -/
def sql (e : TypeEntry) : String :=
  match e.size with
  | some size => e.typeName ++ "(" ++ Text.decimal32 size ++ ")"
  | none => e.typeName

/-- The type the entry writes. -/
def columnType (e : TypeEntry) : ColumnType :=
  .parse e.sql

end TypeEntry

/-- The entries of a type for the dialects. -/
structure DialectTypes where
  mysql : Option TypeEntry := none
  pgsql : Option TypeEntry := none
  spanner : Option TypeEntry := none
  deriving Inhabited

namespace DialectTypes

/-- One entry for all dialects. -/
def all (e : TypeEntry) : DialectTypes :=
  { mysql := some e }

/-- The entry written for a dialect. -/
def own (t : DialectTypes) : Dialect → Option TypeEntry
  | .mysql => t.mysql
  | .pgsql => t.pgsql
  | .spanner => t.spanner

/-- The entry used for a dialect: its own, or else the one for MySQL. -/
def forDialect (t : DialectTypes) (d : Dialect) : Option TypeEntry :=
  t.own d <|> t.mysql

end DialectTypes

end DirectoryTables
