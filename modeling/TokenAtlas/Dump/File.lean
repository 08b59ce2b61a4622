import TokenAtlas.Dump.Json
import TokenAtlas.Notice

/-! Token dumps in files. What a file system answers is given as a value; everything
that follows from it is decided here. A path is looked up, the file is inspected, and
only then read. -/

namespace TokenAtlas.Dump

/-- Why a file system does not answer. -/
inductive Failure
  | missing
  | denied
  | other (reason : String)
deriving Repr, DecidableEq

/-- What stands at a path: a regular file with its absolute path and its size in bytes,
or something else. -/
inductive Lookup
  | failed (why : Failure)
  | notFile
  | file (path : String) (size : Nat)
deriving Repr, DecidableEq

/-- The error that a failure at a path amounts to. -/
def FileError.ofFailure (path : String) : Failure → FileError
  | .missing => .notFound path
  | .denied => .permissionDenied path
  | .other reason => .unreadable s!"{path}: {reason}"

/-- The last part of a path. -/
def fileName (path : String) : List Char := (path.toList.reverse.takeWhile (· ≠ '/')).reverse

/-- What stands behind the last dot of a file's name, in lower case. A dot at the very
front does not count. -/
def extension? (path : String) : Option String :=
  let backwards := (fileName path).reverse
  match backwards.dropWhile (· ≠ '.') with
  | [] | [_] => none
  | _ :: _ => some (Text.lowerString (String.ofList (backwards.takeWhile (· ≠ '.')).reverse))

namespace Metadata

/-- Check the size and the extension of a file. -/
def check (p : FilePreferences) (m : Metadata) : Except FileError Metadata :=
  if Limits.fileSize < m.size then .error (.tooLarge m.size)
  else if m.size = 0 then .error .empty
  else if p.requireJson && !m.isJson then .error (.wrongExtension m.extension)
  else .ok m

/-- The metadata of the file at a requested path, before it is read. -/
def inspect (p : FilePreferences) (requested : String) (found : Lookup) :
    Except FileError Metadata :=
  if requested = "" then .error (.invalidPath "")
  else
    match found with
    | .failed why => .error (.ofFailure requested why)
    | .notFile => .error (.invalidPath requested)
    | .file path size => check p ⟨path, size, extension? path, 0⟩

end Metadata

/-- A dump that was read from a file. -/
structure DumpFile where
  tokens : List Token
  metadata : Metadata

/-- The text of a dump put together from its tokens. -/
def DumpFile.sourceText (d : DumpFile) : String :=
  d.tokens.foldl (fun text t => text ++ t.text) ""

/-- The tokens in the contents of an inspected file. -/
def load (m : Metadata) (contents : Except Failure ByteArray) : Except FileError DumpFile :=
  match contents with
  | .error why => .error (.ofFailure m.path why)
  | .ok bytes =>
    match String.fromUTF8? bytes with
    | none => .error (.invalidEncoding m.path)
    | some text =>
      match parse text with
      | .error .malformed => .error .malformed
      | .error (.tooManyTokens count) => .error (.tooManyTokens count)
      | .ok tokens => .ok ⟨tokens, { m with tokenCount := tokens.length }⟩

/-- Read the dump at a requested path. The contents are asked for only when the file
passed inspection. -/
def ofFile (p : FilePreferences) (requested : String) (found : Lookup)
    (contents : Unit → Except Failure ByteArray) : Told (Except FileError DumpFile) :=
  match Metadata.inspect p requested found with
  | .error e => ⟨.error e, [.fileStarted requested, .fileRejected requested e]⟩
  | .ok m =>
    match load m (contents ()) with
    | .error e =>
      ⟨.error e, [.fileStarted requested, .fileAccepted m.size, .fileRejected requested e]⟩
    | .ok d =>
      ⟨.ok d, [.fileStarted requested, .fileAccepted m.size,
        .fileRead requested m.size d.tokens.length p.timed]⟩

end TokenAtlas.Dump
