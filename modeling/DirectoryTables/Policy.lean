import DirectoryTables.Dialect
import DirectoryTables.Dict
import DirectoryTables.Text.Affix

/-!
# Index policies

Which columns are indexed: for each dialect a section for all tables and one for single tables.
Templates for expressions over JSON columns hold the mark `{field}` in the place of the column.
-/

namespace DirectoryTables

/-- The section for all tables of a dialect. -/
structure CommonPolicy where
  /-- The columns indexed in every table that has them. -/
  fields : List String := []
  /-- The templates of expressions over JSON columns. -/
  json : List String := []
  deriving DecidableEq, Inhabited

/-- The section for one table. -/
structure TablePolicy where
  /-- The columns indexed in the table. -/
  fields : List String := []
  /-- Expressions indexed as they are. -/
  custom : List String := []
  deriving DecidableEq, Inhabited

/-- The policy for one dialect. -/
structure DialectPolicy where
  common : CommonPolicy := {}
  tables : Dict TablePolicy := .empty
  deriving DecidableEq, Inhabited

namespace DialectPolicy

/-- The columns indexed in a table besides the common ones. -/
def tableFields (p : DialectPolicy) (table : String) : List String :=
  ((p.tables.get? table).map TablePolicy.fields).getD []

/-- The expressions indexed in a table. -/
def custom (p : DialectPolicy) (table : String) : List String :=
  ((p.tables.get? table).map TablePolicy.custom).getD []

end DialectPolicy

/-- The policies for all dialects. -/
structure Policy where
  mysql : DialectPolicy := {}
  pgsql : DialectPolicy := {}
  spanner : DialectPolicy := {}
  deriving DecidableEq, Inhabited

namespace Policy

/-- The policy for a dialect. -/
def forDialect (p : Policy) : Dialect → DialectPolicy
  | .mysql => p.mysql
  | .pgsql => p.pgsql
  | .spanner => p.spanner

/-- A template with the column written for its mark. -/
def fillTemplate (template column : String) : String :=
  String.ofList
    (Text.substitute '\x7b' ("field".toList ++ ['\x7d']) column.toList template.toList)

end Policy

end DirectoryTables
