import WasiSandbox.Command.Run
import Std.Time.DateTime.Timestamp

/-! # The command

Reads the files that the command line names, carries the command out, and writes what it has come to.
Everything that is decided is decided in `Command`. -/

namespace WasiSandbox.Command

/-- The error in the terms of the library. -/
def outsideError : IO.Error → OutsideError
  | .noFileOrDirectory .. => .notFound
  | .inappropriateType _ code _ => if code = 20 then .notADirectory else .isADirectory
  | e => .other (toString e)

/-- The content of a file, or why it cannot be read. -/
def readPath (path : String) : IO (Except OutsideError Bytes) := do
  try
    return .ok (← IO.FS.readBinFile path).toList
  catch e => return .error (outsideError e)

/-- Writes a file; why it cannot be written otherwise. -/
def writePath (path : String) (content : Bytes) : IO (Except OutsideError Unit) := do
  try
    IO.FS.writeBinFile path ⟨content.toArray⟩
    return .ok ()
  catch e => return .error (outsideError e)

/-- The clocks as they stand at the start, counting on by a microsecond with each reading, and a pool
of random octets. -/
def currentSurroundings : IO Surroundings := do
  let now ← Std.Time.Timestamp.now
  let mono ← IO.monoNanosNow
  let pool ← IO.getRandomBytes 65536
  let wall := now.toNanosecondsSinceUnixEpoch.val
  return {
    clock := fun id n =>
      match id with
      | .realtime => if wall < 0 then none else some (.ofNat (wall.toNat + 1000 * n))
      | _ => some (.ofNat (mono + 1000 * n))
    readings := 0
    random := fun n => pool.get! (n % pool.size)
    drawn := 0 }

/-- Copies files out, up to the first failure. -/
def writeDumps : List (String × String × Bytes) → IO (Except Failure Unit)
  | [] => return .ok ()
  | (guest, host, content) :: rest => do
    match ← writePath host content with
    | .ok () => writeDumps rest
    | .error e => return .error (.copyOut guest host e)

/-- Writes the report: the exit code. -/
def Report.emit (r : Report) : IO UInt32 := do
  (← IO.getStdout).putStr r.stdout
  (← IO.getStderr).putStr r.stderr
  return .ofNat r.code

/-- Carries out the command. -/
def runArguments (a : Arguments) : IO UInt32 := do
  let paths := a.modulePath :: a.files.map (·.2) ++ a.stdin.toList
  let contents ← paths.mapM fun path => return (path, ← readPath path)
  let read : Reader := fun path => (contents.lookup path).getD (.error .notFound)
  let done := execute (← currentSurroundings) .default read a
  match done.outcome with
  | .error e => (report done.journal (.error e)).emit
  | .ok code => do
    let copied ← writeDumps done.dumps
    (report done.journal (copied.map fun _ => code)).emit

end WasiSandbox.Command

def main (args : List String) : IO UInt32 := do
  match WasiSandbox.Command.parse args with
  | .error e => e.report.emit
  | .ok a => WasiSandbox.Command.runArguments a
