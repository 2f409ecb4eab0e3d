import DirectoryTables.Text.Case

/-!
# Schema — Object classes

The definition of an object class: its names, of which the first is the canonical one and names
the table, the classes it takes attributes from, and its own attributes.  A class can be declared
more than once; a later declaration extends the earlier ones (`ObjectClass.extend`).
-/

namespace DirectoryTables

/-- The definition of an object class. -/
structure ObjectClass where
  names : List String := []
  /-- The classes whose attributes are inherited, unless they are root classes. -/
  parents : List String := []
  /-- The classes whose attributes are merged in. -/
  merged : List String := []
  /-- The attributes an entry may have. -/
  may : List String := []
  /-- Further attributes with a column in the table. -/
  included : List String := []
  /-- Whether the class has no table. -/
  ignored : Bool := false
  deriving DecidableEq, Inhabited

namespace ObjectClass

/-- The canonical name. -/
def name (c : ObjectClass) : String :=
  c.names.headD ""

/-! ### Definitions made in code -/

/-- The class with a name. -/
def ofName (name : String) : ObjectClass :=
  { names := [name] }

/-- The class with a further parent. -/
def withParent (c : ObjectClass) (parent : String) : ObjectClass :=
  { c with parents := c.parents ++ [parent] }

/-- The class with a further class merged in. -/
def withMerged (c : ObjectClass) (merged : String) : ObjectClass :=
  { c with merged := c.merged ++ [merged] }

/-- The class with further attributes. -/
def withMay (c : ObjectClass) (names : List String) : ObjectClass :=
  { c with may := c.may ++ names }

/-- The class with a further attribute that has a column. -/
def withIncluded (c : ObjectClass) (name : String) : ObjectClass :=
  { c with included := c.included ++ [name] }

/-! ### Declarations of one class -/

/-- Names with those of a second list that are none of them, letter case aside. -/
def addNames (names : List String) (further : List String) : List String :=
  further.foldl (fun ns n => if Text.listsName ns n then ns else ns ++ [n]) names

/-- A class extended by a later declaration of it. -/
def extend (c later : ObjectClass) : ObjectClass where
  names := addNames c.names later.names
  parents := c.parents ++ later.parents
  merged := c.merged ++ later.merged
  may := c.may ++ later.may
  included := c.included ++ later.included
  ignored := c.ignored || later.ignored

end ObjectClass

end DirectoryTables
