import DirectoryTables.Backend
import DirectoryTables.Statement

/-!
# Migrations

A migration is a plan of action on a database: statements to issue, and questions about the
catalog on whose answers the rest depends.  It says nothing of sessions, texts or failures; what
happens when it is carried out is told by `Migration.run`.

An object is made only after the catalog was asked for it: `createTableIfAbsent`,
`createIndexIfAbsent`, and for any statement `applyIfAbsent`.
-/

namespace DirectoryTables

/-- Statements and questions, with a result at the end. -/
inductive Migration (α : Type) where
  | done (a : α)
  | issue (statement : Statement) (next : Migration α)
  | askTable (table : String) (next : Bool → Migration α)
  | askColumns (table : String) (next : List String → Migration α)
  | askIndex (table index : String) (next : Bool → Migration α)

namespace Migration

variable {α β : Type}

/-- A migration followed by one that depends on its result. -/
def bind : Migration α → (α → Migration β) → Migration β
  | done a, k => k a
  | issue s next, k => issue s (next.bind k)
  | askTable t next, k => askTable t fun b => (next b).bind k
  | askColumns t next, k => askColumns t fun cs => (next cs).bind k
  | askIndex t i next, k => askIndex t i fun b => (next b).bind k

instance : Monad Migration where
  pure := done
  bind := bind

@[simp] theorem bind_done (m : Migration α) : m.bind done = m := by
  induction m with
  | done a => rfl
  | issue s next ih => simp [bind, ih]
  | askTable t next ih | askColumns t next ih | askIndex t i next ih => simp [bind, ih]

theorem bind_assoc {γ : Type} (m : Migration α) (f : α → Migration β) (g : β → Migration γ) :
    (m.bind f).bind g = m.bind fun a => (f a).bind g := by
  induction m with
  | done a => rfl
  | issue s next ih => simp [bind, ih]
  | askTable t next ih | askColumns t next ih | askIndex t i next ih => simp [bind, ih]

instance : LawfulMonad Migration :=
  LawfulMonad.mk' Migration bind_done (fun _ _ => rfl) bind_assoc

/-! ### Checks before statements -/

/-- Whether a table has a column, letter case aside. -/
def hasColumn (table column : String) : Migration Bool :=
  askColumns table fun columns => done (Text.listsName columns column)

/-- Add a column; whether it is there already has to be known. -/
def addColumn (table : String) (column : ColumnDef) : Migration Unit :=
  issue (.addColumn { table, column }) (done ())

/-- Create a table unless there is one of its name.  Says whether it was created. -/
def createTableIfAbsent (t : CreateTable) : Migration Bool :=
  askTable t.name fun present =>
    if present then done false else issue (.createTable t) (done true)

/-- Create an index, under its fitted name, unless its table has one of that name.  Says whether it
was created. -/
def createIndexIfAbsent (b : Backend) (i : CreateIndex) : Migration Bool :=
  let i := { i with name := b.fit i.name }
  askIndex i.table i.name fun present =>
    if present then done false else issue (.createIndex i) (done true)

/-- Issue a statement unless its object is there.  Says whether it was issued. -/
def applyIfAbsent (b : Backend) : Statement → Migration Bool
  | .createTable create => createTableIfAbsent create
  | .addColumn add => do
    if ← hasColumn add.table add.column.name then return false
    addColumn add.table add.column
    return true
  | .createIndex index => createIndexIfAbsent b index

end Migration

end DirectoryTables
