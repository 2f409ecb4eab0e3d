import DirectoryTables.ColumnType
import DirectoryTables.Dialect
import DirectoryTables.Digest.Blake3
import DirectoryTables.Text.Bytes
import DirectoryTables.Version

/-!
# Backends

A backend is a dialect with the version of the server, when that is known.  It says how names are
quoted, how long they may be and how longer ones are fitted, which types collections have, and how
JSON columns can be indexed.
-/

namespace DirectoryTables

/-- A dialect and the version of the server. -/
structure Backend where
  dialect : Dialect
  version : Option Version
  deriving DecidableEq, Inhabited

/-- How columns that hold JSON documents or arrays are indexed. -/
inductive JsonIndexing where
  /-- One index over an expression for each template. -/
  | functional
  /-- Generated columns for the first positions of the array, each with an index. -/
  | shadowColumns
  /-- Not at all. -/
  | unsupported
  deriving DecidableEq

namespace Backend

/-! ### Abilities -/

/-- The first MySQL version that indexes expressions over JSON arrays. -/
def functionalJsonIndexing : Version := { major := 8, minor := 0, patch := 17 }

/-- How JSON columns are indexed.  An unknown MySQL version counts as a current one. -/
def jsonIndexing (b : Backend) : JsonIndexing :=
  match b.dialect with
  | .pgsql => .functional
  | .spanner => .unsupported
  | .mysql =>
    match b.version with
    | some v => if v.isBefore functionalJsonIndexing then .shadowColumns else .functional
    | none => .functional

/-- Whether `CREATE TABLE` can declare that a column is unique. -/
def hasInlineUnique (b : Backend) : Bool :=
  b.dialect != .spanner

/-- Whether a text column can only be indexed by a prefix. -/
def needsTextPrefix (b : Backend) : Bool :=
  b.dialect == .mysql

/-- The type of a column that holds several values of a type. -/
def collectionType (b : Backend) (element : ColumnType) : ColumnType :=
  match b.dialect with
  | .spanner => .array element
  | .mysql | .pgsql => .json

/-! ### Names in statements -/

/-- The mark around quoted names. -/
def quoteMark? : Dialect → Option Char
  | .mysql => some '\x60'
  | .pgsql => some '\x22'
  | .spanner => none

/-- A name between two marks; a mark inside it is written twice. -/
def enclose (mark : Char) (name : List Char) : List Char :=
  mark :: name.flatMap (fun c => if c = mark then [mark, mark] else [c]) ++ [mark]

/-- A name as it is written in a statement. -/
def quote (b : Backend) (name : String) : String :=
  match quoteMark? b.dialect with
  | some mark => String.ofList (enclose mark name.toList)
  | none => name

/-- The greatest length of a name, in UTF-8 bytes. -/
def maxNameLength (b : Backend) : Nat :=
  match b.dialect with
  | .mysql => 64
  | .pgsql => 63
  | .spanner => 128

/-- A name of at most `limit` bytes as it is; of a longer one the characters that leave room for
an underscore and the first eight digits of its digest. -/
def fitWith (digest : String → List Char) (limit : Nat) (name : String) : String :=
  if name.utf8ByteSize ≤ limit then name
  else String.ofList (Text.takeBytes (limit - 9) name.toList ++ '_' :: (digest name).take 8)

/-- The name under which the backend keeps an object with the given name. -/
def fit (b : Backend) (name : String) : String :=
  fitWith Digest.hexDigest b.maxNameLength name

end Backend

end DirectoryTables
