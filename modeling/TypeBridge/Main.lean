import TypeBridge.Command.Run
/-!
# TypeBridge — the program

Reads the files that the arguments lead to, runs, and carries out what the run
reports.
-/

namespace TypeBridge

namespace Command

/-- What a path leads to on disk. -/
def readEntry (path : String) : IO Entry := do
  match ← (IO.FS.readFile path).toBaseIO with
  | .ok text => return .file text
  | .error (.noFileOrDirectory ..) => return .missing
  | .error (.inappropriateType ..) => return .directory
  | .error e => throw e

/-- Every path that arguments may ask to read, with what it leads to. -/
def readEntries (arguments : List String) : IO (List (String × Entry)) :=
  (pathsToRead arguments).mapM fun path => return (path, ← readEntry path)

/-- Carries out what a run reports. -/
def Report.perform (report : Report) : IO Unit := do
  IO.print (Text.writable report.stdout)
  IO.eprint (Text.writable report.stderr)
  if let some (path, text) := report.written then
    IO.FS.writeFile path (Text.writable text)
  if let .breakdown _ := report.ending then
    IO.eprintln "The settings leave no way to go on."

end Command

end TypeBridge

def main (arguments : List String) : IO UInt32 := do
  let entries ← TypeBridge.Command.readEntries arguments
  let inherited ← ["REINTEROP_BASE_NAMESPACE", "COLUMNS"].mapM fun name =>
    return (name, ← IO.getEnv name)
  let files := fun path => (entries.lookup path).getD .missing
  let environment := fun name => (inherited.lookup name).join
  let report := TypeBridge.Command.run files environment arguments
  report.perform
  return report.ending.exitCode.toUInt32
