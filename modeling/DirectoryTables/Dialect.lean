import DirectoryTables.Text.Case

/-!
# Dialects

The three families of databases that statements are written for, and their names.
-/

namespace DirectoryTables

/-- A family of databases. -/
inductive Dialect where
  | mysql
  | pgsql
  | spanner
  deriving DecidableEq, Inhabited

namespace Dialect

/-- The name of a dialect. -/
def name : Dialect → String
  | mysql => "mysql"
  | pgsql => "pgsql"
  | spanner => "spanner"

/-- The dialect with an exact name, other names in use included. -/
def ofName? (name : String) : Option Dialect :=
  if name = "mysql" then some mysql
  else if name ∈ ["pgsql", "postgres", "postgresql", "pg"] then some pgsql
  else if name = "spanner" then some spanner
  else none

/-- The dialect a text names, letter case aside. -/
def parse? (s : String) : Option Dialect :=
  ofName? (Text.lower s)

/-- What is said of a text that names no dialect. -/
def unknownMessage (s : String) : String :=
  "unknown dialect: " ++ Text.lower s

end Dialect

end DirectoryTables
