import OpenApiTs.Command.Run

/-!
# The program

The command line on the files of the machine.
-/

namespace OpenApiTs.Program

/-- The fault that an error of the machine stands for. -/
def pathFault : IO.Error → PathFault
  | .noFileOrDirectory .. => .missing
  | .permissionDenied _ code text => if code = 13 then .denied else .other text
  | .inappropriateType _ code _ => if code = 21 then .isDirectory else .notDirectory
  | .invalidArgument _ code text => if code = 36 then .nameTooLong else .other text
  | error => .other error.toString

/-- A step whose errors are faults. -/
def attempt {α : Type} (step : IO α) : IO (Except PathFault α) := do
  match ← step.toBaseIO with
  | .ok x => pure (.ok x)
  | .error error => pure (.error (pathFault error))

/-- The octets that are left of a stream. -/
partial def readAll (stream : IO.FS.Stream) (before : ByteArray) : IO ByteArray := do
  let octets ← stream.read 65536
  if octets.isEmpty then pure before else readAll stream (before ++ octets)

/-- The text of the octets that a step reads. -/
def readText (step : IO ByteArray) : IO (Except PathFault String) := do
  pure ((← attempt step).bind Text.ofOctets)

/-- The operations on the files of the machine. -/
def access : FileAccess IO where
  isFile path := do
    let path := (← IO.currentDir) / path
    if ← path.pathExists then pure (!(← path.isDir)) else pure false
  read path := readText (IO.FS.readBinFile path)
  write path contents := attempt (IO.FS.writeFile path contents)
  find path := attempt (do let _ ← IO.FS.realPath path)
  input := readText (do readAll (← IO.getStdin) .empty)

/-- Prints an outcome. -/
def report (outcome : Outcome) : IO Unit := do
  IO.print outcome.stdout
  outcome.stderr.forM fun line => IO.eprintln line

/-- When the file at a path was last changed. -/
def lastChange (path : String) : IO (Option (Int × UInt32)) := do
  match ← ((← IO.currentDir) / path).metadata.toBaseIO with
  | .ok data => pure (some (data.modified.sec, data.modified.nsec))
  | .error _ => pure none

/-- Generates again after every change of the document. -/
partial def watch (request : Request) (seen : Option (Int × UInt32)) : IO Unit := do
  IO.sleep 300
  let now ← lastChange request.input
  if now ≠ seen then report (← { request with watch := false }.run access)
  watch request now

end OpenApiTs.Program

/-- The program on an argument list. -/
def main (arguments : List String) : IO UInt32 := do
  let outcome ← OpenApiTs.runArguments OpenApiTs.Program.access arguments
  OpenApiTs.Program.report outcome
  if outcome.watching then
    if let .ok request := OpenApiTs.Request.ofArguments arguments then
      OpenApiTs.Program.watch request (← OpenApiTs.Program.lastChange request.input)
  pure outcome.exit.toUInt32
