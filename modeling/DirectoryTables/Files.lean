import DirectoryTables.Dict
import DirectoryTables.FileError
import DirectoryTables.Log

/-!
# Files

What the program asks of files (`Files`): read a text, see to it that a file is there, append to
it.  `FileTree` is a working directory held in memory, with the files below it; a directory is
there as long as a file is in it.  Of what is outside of it, the directories above are known, and
some directories and devices that every system has.
-/

namespace DirectoryTables

/-- What is asked of files, answered in a monad. -/
structure Files (m : Type → Type) where
  /-- The text of a file. -/
  read : (path : String) → m (Except FileError String)
  /-- Open a file for appending, and make it if it is not there. -/
  openAppend : (path : String) → m (Except FileError Unit)
  /-- Append a text to a file that was opened. -/
  append : (path text : String) → m (Except FileError Unit)
  /-- Make sure that everything appended is kept. -/
  sync : (path : String) → m (Except FileError Unit)

/-- A device that takes texts and keeps none. -/
inductive Device where
  /-- It takes every text. -/
  | null
  /-- It never has room for a text. -/
  | full
  deriving DecidableEq

/-- The files below a working directory, by their paths from there, in which the names are
separated by single slashes. -/
structure FileTree where
  files : Dict ByteArray

namespace FileTree

/-- The tree without files. -/
def empty : FileTree := ⟨.empty⟩

/-- The tree with a file. -/
def withFile (t : FileTree) (path : String) (bytes : ByteArray) : FileTree :=
  ⟨t.files.insert path bytes⟩

/-! ### Walking along a path -/

/-- What a path leads to. -/
inductive Place where
  | directory
  | file (path : List (List Char)) (bytes : ByteArray)
  | device (d : Device)
  /-- A name in a directory that has nothing under it. -/
  | vacant (path : List (List Char))

/-- The names of a path with slashes between them. -/
def joined (path : List (List Char)) : List Char :=
  (path.intersperse ['/']).flatten

/-- The file or the device under a path. -/
def entry? (t : FileTree) (path : List (List Char)) : Option Place :=
  match joined path with
  | ['/', 'd', 'e', 'v', '/', 'n', 'u', 'l', 'l'] => some (.device .null)
  | ['/', 'd', 'e', 'v', '/', 'f', 'u', 'l', 'l'] => some (.device .full)
  | key => (t.files.get? (String.ofList key)).map (.file path)

/-- The name of the directory above. -/
def above : List Char := ['.', '.']

/-- The path of the root directory, which has an empty name. -/
def root : List (List Char) := [[]]

/-- The names of directories in the root directory. -/
def systemNames : List String :=
  ["bin", "dev", "etc", "home", "lib", "proc", "sys", "tmp", "usr", "var"]

/-- Whether a path is that of a directory: the working directory, one above it, one of the system,
or one with a file below it. -/
def isDirectory (t : FileTree) (path : List (List Char)) : Bool :=
  path.all (· == above) || path == root ||
    systemNames.any (fun name => path == root ++ [name.toList]) ||
    t.files.keys.any fun key => (joined path ++ ['/']).isPrefixOf key.toList

/-- The path of the directory above a directory; the root directory is above itself. -/
def parent (path : List (List Char)) : List (List Char) :=
  if path == root then root
  else if path.all (· == above) then path ++ [above]
  else path.dropLast

/-- The greatest length of a name, in bytes. -/
def maxNameLength : Nat := 255

/-- The length of a path, in bytes, that is too great. -/
def pathLimit : Nat := 4096

/-- A walk from a directory along names.  Only the last name can be that of a file, or of nothing.
When a file is to be made, slashes behind its name stand for a directory. -/
def walk (t : FileTree) (creating : Bool) :
    (directory names : List (List Char)) → Except FileError Place
  | _, [] => .ok .directory
  | dir, name :: rest =>
    if name = [] ∨ name = ['.'] then walk t creating dir rest
    else if name = above then walk t creating (parent dir) rest
    else if creating ∧ rest ≠ [] ∧ rest.all (· == []) then .error .isDirectory
    else if (String.ofList name).utf8ByteSize > maxNameLength then .error .nameTooLong
    else
      let path := dir ++ [name]
      if t.isDirectory path then walk t creating path rest
      else if rest = [] then .ok ((t.entry? path).getD (.vacant path))
      else if (t.entry? path).isSome then .error .notDirectory
      else .error .notFound

/-- Where a path leads. -/
def locate (t : FileTree) (creating : Bool) (path : String) : Except FileError Place :=
  if '\x00' ∈ path.toList then .error .nulInPath
  else if path.utf8ByteSize ≥ pathLimit then .error .nameTooLong
  else
    match path.toList with
    | [] => .error .notFound
    | '/' :: cs => walk t creating root (cs.splitOnP (· == '/'))
    | cs => walk t creating [] (cs.splitOnP (· == '/'))

/-! ### Reading and appending -/

/-- The bytes of a file. -/
def readBytes (t : FileTree) (path : String) : Except FileError ByteArray := do
  match ← t.locate false path with
  | .directory => .error .isDirectory
  | .vacant _ => .error .notFound
  | .device _ => .ok .empty
  | .file _ bytes => .ok bytes

/-- The text of a file. -/
def read (t : FileTree) (path : String) : Except FileError String := do
  match String.fromUTF8? (← t.readBytes path) with
  | some text => return text
  | none => .error .notText

/-- The tree with bytes at the end of a file, which is made if it is not there. -/
def appendBytes (t : FileTree) (path : String) (further : ByteArray) :
    Except FileError FileTree := do
  let key (names : List (List Char)) := String.ofList (joined names)
  match ← t.locate true path with
  | .directory => .error .isDirectory
  | .vacant names => .ok (t.withFile (key names) further)
  | .device .null => .ok t
  | .device .full => if further.isEmpty then .ok t else .error .noSpace
  | .file names bytes => .ok (t.withFile (key names) (bytes ++ further))

/-- The tree with a text at the end of a file. -/
def append (t : FileTree) (path text : String) : Except FileError FileTree :=
  t.appendBytes path text.toUTF8

/-- Whether everything appended to a file is kept. -/
def sync (t : FileTree) (path : String) : Except FileError Unit := do
  match ← t.locate true path with
  | .device _ => .error .notKept
  | .directory | .vacant _ | .file .. => .ok ()

/-- The outcome of a change, with the tree as it was if it failed. -/
def keeping (t : FileTree) : Except FileError FileTree → Except FileError Unit × FileTree
  | .ok changed => (.ok (), changed)
  | .error e => (.error e, t)

/-- The log that appends its entries to a file. -/
def log (path : String) : Log FileTree where
  record sql t := t.keeping (t.append path (Log.line sql))
  flush t := (t.sync path, t)

/-- The files of a tree. -/
def access : Files (StateM FileTree) where
  read path := fun t => (t.read path, t)
  openAppend path := fun t => t.keeping (t.append path "")
  append path text := fun t => t.keeping (t.append path text)
  sync path := fun t => (t.sync path, t)

end FileTree

end DirectoryTables
