import DirectoryTables.FileError
import DirectoryTables.Text.Blank

/-!
# Logs

Every statement handed to a session is recorded in a log, one to a line, without the blank space
at its end.  A log is given by what recording and flushing answer and how they change a state.
-/

namespace DirectoryTables

/-- The calls of a log with states in `τ`. -/
structure Log (τ : Type) where
  /-- Record a statement. -/
  record : String → τ → Except FileError Unit × τ
  /-- Make sure that everything recorded is kept. -/
  flush : τ → Except FileError Unit × τ := fun t => (.ok (), t)

namespace Log

variable {τ : Type}

/-- The entry for a statement. -/
def entry (sql : String) : String :=
  Text.withoutTrailingBlanks sql

/-- The entry for a statement with a line end. -/
def line (sql : String) : String :=
  entry sql ++ "\n"

/-- The log that keeps its entries in memory. -/
def memory : Log (List String) where
  record sql lines := (.ok (), lines ++ [entry sql])

/-- The log that keeps nothing. -/
def null : Log τ where
  record _ t := (.ok (), t)

/-- The log that appends its entries to a text, each on a line of its own. -/
def lines : Log String where
  record sql text := (.ok (), text ++ line sql)

/-- The log in which those records fail, without an effect, for which `fails` gives an error, and
flushing where `flushFails` does.  Records are numbered from zero. -/
def interrupted (fails : Nat → Option FileError) (flushFails : Option FileError) (log : Log τ) :
    Log (τ × Nat) where
  record sql t :=
    match fails t.2 with
    | some e => (.error e, (t.1, t.2 + 1))
    | none => ((log.record sql t.1).1, ((log.record sql t.1).2, t.2 + 1))
  flush t :=
    match flushFails with
    | some e => (.error e, t)
    | none => ((log.flush t.1).1, ((log.flush t.1).2, t.2))

end Log

end DirectoryTables
