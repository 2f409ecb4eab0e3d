import DirectoryTables.ConfigError
import DirectoryTables.Registry
import DirectoryTables.Schema.Attribute
import DirectoryTables.Schema.ObjectClass

/-!
# Directories

Schema documents and the directory that several of them describe together.  Documents are merged
in order: a later definition of a known attribute replaces the earlier one, a later declaration of
a known object class extends it.
-/

namespace DirectoryTables

/-- The definitions of one document. -/
structure SchemaDocument where
  attributes : List Attribute := []
  classes : List ObjectClass := []
  deriving Inhabited

/-- The definitions of all documents. -/
structure Directory where
  attributes : Registry Attribute
  classes : Registry ObjectClass
  deriving Inhabited

namespace Directory

/-- The directory without definitions. -/
def empty : Directory :=
  { attributes := .empty, classes := .empty }

/-! ### Merging documents -/

/-- Definitions with their positions; each of them needs a name. -/
def named {α : Type} (kind : Definition) (namesOf : α → List String) (definitions : List α) :
    Except ConfigError (List α) :=
  definitions.zipIdx.mapM fun (a, position) =>
    if namesOf a = [] then .error (.unnamed kind position) else .ok a

/-- The attributes with one more definition. -/
def defineAttribute (r : Registry Attribute) (a : Attribute) : Registry Attribute :=
  r.define Attribute.names (fun _ later => later) a

/-- The classes with one more declaration. -/
def defineClass (r : Registry ObjectClass) (c : ObjectClass) : Registry ObjectClass :=
  r.define ObjectClass.names ObjectClass.extend c

/-- The directory with the definitions of a document. -/
def merge (d : Directory) (doc : SchemaDocument) : Except ConfigError Directory := do
  let attributes ← named .attributeType Attribute.names doc.attributes
  let classes ← named .objectClass ObjectClass.names doc.classes
  return {
    attributes := attributes.foldl defineAttribute d.attributes
    classes := classes.foldl defineClass d.classes }

/-- The directory that documents describe, merged in order. -/
def ofDocuments (docs : List SchemaDocument) : Except ConfigError Directory :=
  docs.foldlM merge empty

/-! ### Looking up names -/

/-- The attribute a name stands for. -/
def attribute? (d : Directory) (name : String) : Option Attribute :=
  d.attributes.find? name

/-- The object class a name stands for. -/
def class? (d : Directory) (name : String) : Option ObjectClass :=
  d.classes.find? name

/-- Whether a name stands for an attribute with several values. -/
def isMultivalued (d : Directory) (name : String) : Bool :=
  (d.attribute? name).any (·.multivalued)

/-- The canonical name of the attribute a name stands for; a name that stands for none is kept. -/
def canonical (d : Directory) (name : String) : String :=
  ((d.attribute? name).map Attribute.name).getD name

end Directory

end DirectoryTables
