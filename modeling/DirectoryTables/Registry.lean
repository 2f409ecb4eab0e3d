import DirectoryTables.Dict
import DirectoryTables.Text.Case

/-!
# Registries

Definitions that go by several names.  A registry keeps its definitions in the order in which they
were first made, and finds one by any name it was entered under, letter case aside.  A definition
with a name that is known already does not get a place of its own: it is joined to the definition
in that place.
-/

namespace DirectoryTables

/-- Definitions in order, and the place of each name in lower case. -/
structure Registry (α : Type) where
  items : List α
  places : Dict Nat
  deriving Inhabited

namespace Registry

variable {α : Type}

/-- The registry without definitions. -/
def empty : Registry α :=
  { items := [], places := .empty }

/-- The place a name was entered under last. -/
def place? (r : Registry α) (name : String) : Option Nat :=
  r.places.get? (Text.lower name)

/-- The definition in the place of a name. -/
def find? (r : Registry α) (name : String) : Option α :=
  (r.place? name).bind (r.items[·]?)

/-- The names entered for a place. -/
def enter (places : Dict Nat) (names : List String) (place : Nat) : Dict Nat :=
  names.foldl (fun ps name => ps.insert (Text.lower name) place) places

/-- One more definition.  Its first known name decides the place: there `join` makes one definition
of the old and the new one.  Without a known name it gets a place at the end.  All names of the
definition that then stands in the place lead to it. -/
def define (namesOf : α → List String) (join : α → α → α) (r : Registry α) (a : α) :
    Registry α :=
  let known := (namesOf a).findSome? r.place?
  let place := known.getD r.items.length
  let items :=
    match known with
    | some i => r.items.modify i (join · a)
    | none => r.items ++ [a]
  { items, places := enter r.places ((items[place]?.map namesOf).getD []) place }

end Registry

end DirectoryTables
