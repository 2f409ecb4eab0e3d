import DirectoryTables.CommandLine.Run

/-!
# Main

The program on the files of the system.
-/

namespace DirectoryTables

/-- The cause of a failed file operation. -/
def FileError.ofSystem : IO.Error → FileError
  | .noFileOrDirectory .. => .notFound
  | .inappropriateType _ 20 _ => .notDirectory
  | .inappropriateType _ 21 _ => .isDirectory
  | .inappropriateType .. => .isDirectory
  | e => .device (toString e)

/-- The outcome of a file operation. -/
def fileOutcome {α : Type} (action : IO α) : IO (Except FileError α) := do
  match ← action.toBaseIO with
  | .ok a => return .ok a
  | .error e => return .error (.ofSystem e)

/-- The files of the system. -/
def systemFiles : Files IO where
  read path := do
    match ← fileOutcome (IO.FS.readBinFile path) with
    | .error e => return .error e
    | .ok bytes =>
      match String.fromUTF8? bytes with
      | some text => return .ok text
      | none => return .error .notText
  openAppend path := fileOutcome do
    let _ ← IO.FS.Handle.mk path .append
  append path text := fileOutcome do
    let handle ← IO.FS.Handle.mk path .append
    handle.putStr text
    handle.flush
  sync _ := return .ok ()

end DirectoryTables

/-- Run the program. -/
def main (arguments : List String) : IO UInt32 := do
  let outcome ← DirectoryTables.CommandLine.run DirectoryTables.systemFiles arguments
  (← IO.getStdout).putStr outcome.output
  (← IO.getStderr).putStr outcome.report
  return outcome.exitCode.toUInt32
