import DirectoryTables.Table
import DirectoryTables.Typing

/-!
# Plans

The tables and subtables for a directory.  Every object class that is not ignored gets a table;
its columns are the bookkeeping columns and the attributes the class asks for, each once, without
those whose values go to a subtable.  A plan depends on nothing but the directory and the
configuration, and every error in them is found here.
-/

namespace DirectoryTables

/-- The tables and subtables for a directory. -/
structure Plan where
  tables : List Table := []
  subtables : List Subtable := []
  deriving DecidableEq, Inhabited

namespace Plan

/-! ### The columns of a table -/

/-- The attributes of the classes that a class merges. -/
def mergedNames (d : Directory) (cls : ObjectClass) : Except ConfigError (List (List String)) :=
  cls.merged.mapM fun merged =>
    match d.class? merged with
    | some source => .ok source.may
    | none => .error (.undefinedMerge cls.name merged)

/-- The attributes of the parents of a class that are no root classes. -/
def inheritedNames (d : Directory) (c : Config) (cls : ObjectClass) :
    Except ConfigError (List (List String)) :=
  (cls.parents.filter fun parent => !c.isRootClass parent).mapM fun parent =>
    match d.class? parent with
    | some source => .ok source.may
    | none => .error (.undefinedParent cls.name parent)

/-- The canonical names of the attributes that are always in a table. -/
def alwaysNames (d : Directory) (table : String) : List String :=
  (d.attributes.items.filter (·.isAlwaysIn table)).map Attribute.name

/-- The names a class asks for: its own attributes, the included ones, those that are always in
its table, then those of merged classes and of parents. -/
def requestedNames (d : Directory) (c : Config) (cls : ObjectClass) :
    Except ConfigError (List String) := do
  let merged ← mergedNames d cls
  let inherited ← inheritedNames d c cls
  return cls.may ++ cls.included ++ alwaysNames d cls.name ++ merged.flatten ++ inherited.flatten

/-- The attributes among names: each canonical name once, without the bookkeeping columns. -/
def attributeNames (d : Directory) (names : List String) : List String :=
  Text.distinctNames ((names.map d.canonical).filter fun n => !isBookkeeping n)

/-- Whether the values of an attribute go to a subtable of a table. -/
def isRouted (d : Directory) (table name : String) : Bool :=
  (d.attribute? name).any (·.isRoutedFrom table)

/-- The columns for the names a class asks for. -/
def columnsFor (d : Directory) (c : Config) (table : String) (names : List String) :
    List Column :=
  ((attributeNames d names).filter fun n => !isRouted d table n).map fun n =>
    ⟨n, Typing.columnType d c n table⟩

/-- The table of a class. -/
def tableFor (d : Directory) (c : Config) (cls : ObjectClass) : Except ConfigError Table := do
  let names ← requestedNames d c cls
  return { name := cls.name, columns := bookkeeping ++ columnsFor d c cls.name names }

/-- The tables for a directory, in the order of the classes. -/
def tablesFor (d : Directory) (c : Config) : Except ConfigError (List Table) :=
  (d.classes.items.filter fun cls => !cls.ignored).mapM (tableFor d c)

/-! ### Subtables -/

/-- The attributes with the tables whose values of them go to a subtable. -/
def routes (d : Directory) : List (Attribute × String) :=
  d.attributes.items.flatMap fun a => a.subtables.map (a, ·)

/-- The subtables for a directory, in the order of the attributes.  Their parents have to be among
the given tables. -/
def subtablesFor (d : Directory) (c : Config) (tables : List Table) :
    Except ConfigError (List Subtable) :=
  (routes d).mapM fun (a, parent) =>
    if tables.any (·.name == parent) then
      .ok { parent, valueColumn := a.name, valueType := Typing.valueType d c a.name parent }
    else .error (.unknownSubtableParent a.name parent)

/-- The plan for a directory. -/
def ofDirectory (d : Directory) (c : Config) : Except ConfigError Plan := do
  let tables ← tablesFor d c
  let subtables ← subtablesFor d c tables
  return { tables, subtables }

end Plan

end DirectoryTables
