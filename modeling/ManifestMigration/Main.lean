import ManifestMigration.CommandLine.Run

/-! # The program

The outer layer: the files of the system, the arguments, and the streams. The environment can set a
log filter; without one, warnings and errors are shown.
-/

namespace ManifestMigration

def faultOfError (e : IO.Error) : FileFault :=
  match e with
  | .noFileOrDirectory .. => .notFound
  | .permissionDenied .. => .permissionDenied
  | .inappropriateType _ code _ =>
    if code = 20 then .notADirectory
    else if code = 21 then .isADirectory
    else .other (toString e)
  | _ => .other (toString e)

/-- The error of a reading action. A directory can be opened but not read. -/
def readError (path : String) (e : IO.Error) : FileError :=
  let fault := faultOfError e
  ⟨path, if fault = .isADirectory then .readFile else .openFile, fault⟩

def readSystemFile (path : String) : IO (Except FileError ByteArray) := do
  try return .ok (← IO.FS.readBinFile path)
  catch e => return .error (readError path e)

instance : FileAccess IO where
  readBytes := readSystemFile
  writeBytes path bytes := do
    try IO.FS.writeBinFile path bytes; return .ok ()
    catch e => return .error ⟨path, .createFile, faultOfError e⟩
  isFile path := return (← readSystemFile path).isOk
  isThere path := do
    match ← readSystemFile path with
    | .ok _ => return true
    | .error e => return e.fault != .notFound && e.fault != .notADirectory

/-- The variable of the environment that holds the log filter. -/
def filterVariable : String := "CAPIMIG_LOG"

def filterOfEnvironment : IO Log.Filter := do
  return ((← IO.getEnv filterVariable).bind Log.Filter.ofText?).getD (.upTo .warn)

end ManifestMigration

open ManifestMigration

def main (arguments : List String) : IO UInt32 := do
  let outcome : CommandLine.Outcome ← CommandLine.run arguments
  IO.print outcome.output
  for entry in (← filterOfEnvironment).apply outcome.log do
    if let some line := entry.line? then IO.eprintln line.render
  if let some e := outcome.usageError then IO.eprintln ("error: " ++ e.message)
  return UInt32.ofNat outcome.exitCode
