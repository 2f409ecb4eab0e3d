import DirectoryTables.TypeEntry

/-!
# Schema — Attributes

The definition of a directory attribute: its names, of which the first is the canonical one, what
is known of its values, and the tables that treat it specially.
-/

namespace DirectoryTables

/-- The definition of an attribute. -/
structure Attribute where
  names : List String := []
  /-- The identifier of the syntax of the values. -/
  syntaxId : Option String := none
  /-- The greatest length of a value. -/
  size : Option UInt32 := none
  /-- Whether an entry can have several values. -/
  multivalued : Bool := false
  /-- The type given explicitly. -/
  sql : Option DialectTypes := none
  /-- The tables that always have a column for the attribute. -/
  alwaysIn : List String := []
  /-- The tables that keep the values of the attribute in a subtable. -/
  subtables : List String := []
  deriving Inhabited

namespace Attribute

/-- The canonical name. -/
def name (a : Attribute) : String :=
  a.names.headD ""

/-! ### Definitions made in code -/

/-- The attribute with a name and a syntax. -/
def ofName (name syntaxId : String) : Attribute :=
  { names := [name], syntaxId := some syntaxId }

/-- The attribute with a further name. -/
def withName (a : Attribute) (name : String) : Attribute :=
  { a with names := a.names ++ [name] }

/-- The attribute with a column in a table, always. -/
def withColumnIn (a : Attribute) (table : String) : Attribute :=
  { a with alwaysIn := a.alwaysIn ++ [table] }

/-- The attribute with its values for a table in a subtable. -/
def withSubtableOf (a : Attribute) (table : String) : Attribute :=
  { a with subtables := a.subtables ++ [table] }

/-! ### Questions -/

/-- Whether a name is one of the attribute's, letter case aside. -/
def hasName (a : Attribute) (name : String) : Bool :=
  Text.listsName a.names name

/-- Whether the values for a table are kept in a subtable. -/
def isRoutedFrom (a : Attribute) (table : String) : Bool :=
  a.subtables.contains table

/-- Whether a table always has a column for the attribute. -/
def isAlwaysIn (a : Attribute) (table : String) : Bool :=
  a.alwaysIn.contains table

end Attribute

end DirectoryTables
