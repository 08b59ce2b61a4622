import Std.Time.DateTime.Timestamp
import TokenAtlas.CommandLine.Session

/-! The program. It reads a token dump, and writes a document to the standard output. -/

namespace TokenAtlas.CommandLine

/-- The variables that are set. -/
def environment : IO Environment := do
  let values ← Variable.all.mapM fun v => return (v.name, ← IO.getEnv v.name)
  return values.filterMap fun entry => entry.2.map fun value => (entry.1, value)

def now : IO Moment := do
  let nanos := (← Std.Time.Timestamp.now).toNanosecondsSinceUnixEpoch.val
  return .ofUnix (nanos.fdiv 1000000000) (nanos.fmod 1000000000).toNat

/-- A failure told by the system's error number and its description. Only number 2 says
that nothing is there. -/
def failureOfNumber (number : UInt32) (details : String) : Dump.Failure :=
  if number = 2 then .missing else .other s!"{details} (os error {number})"

def failureOf : IO.Error → Dump.Failure
  | .noFileOrDirectory _ number details => failureOfNumber number details
  | .inappropriateType _ number details => failureOfNumber number details
  | .invalidArgument _ number details => failureOfNumber number details
  | .permissionDenied .. => .denied
  | e => .other (toString e)

/-- Why a path leads nowhere, which an attempt to open it tells. -/
def reasonFor (path : String) : IO Dump.Failure :=
  try
    let _ ← IO.FS.Handle.mk path .read
    return .missing
  catch e => return failureOf e

/-- Look a path up in the file system. -/
def lookup (path : String) : IO Dump.Lookup :=
  try
    let resolved ← IO.FS.realPath path
    let facts ← resolved.metadata
    match facts.type with
    | .file => return .file resolved.toString facts.byteSize.toNat
    | _ => return .notFile
  catch _ => return .failed (← reasonFor path)

/-- The contents of a file that passes inspection. -/
def contents (p : Preferences) (path : String) (found : Dump.Lookup) :
    IO (Except Dump.Failure ByteArray) := do
  match Dump.Metadata.inspect p.files path found with
  | .error _ => return .ok .empty
  | .ok m =>
    try return .ok (← IO.FS.readBinFile m.path)
    catch e => return .error (failureOf e)

def session (p : Preferences) (args : List String) : IO Session := do
  match Request.ofArguments p args with
  | .process path o =>
    let found ← lookup path
    let bytes ← contents p path found
    return process p path o found (fun _ => bytes) (← now)
  | request => return .immediate "srcview" request

def display (p : LogPreferences) (e : Effect) : IO Unit := do
  e.outputLine?.forM IO.println
  (e.errorLine? p (← now)).forM IO.eprintln

def perform (p : LogPreferences) (start : Nat) (d : Log.Dispatcher) (s : Step) :
    IO Log.Dispatcher := do
  let (effect, d) := s.perform p ((← IO.monoNanosNow) - start) d
  effect.forM (display p)
  return d

end TokenAtlas.CommandLine

open TokenAtlas CommandLine in
def main (args : List String) : IO UInt32 := do
  let start ← IO.monoNanosNow
  let p := Preferences.ofEnvironment (← environment)
  let s ← session p args
  let _ ← s.steps.foldlM (perform p.log start) (dispatcher p.log)
  return s.exit.toUInt32
