import TokenAtlas.Limits
import TokenAtlas.Log.Code
import TokenAtlas.Text.Quoted

/-! Why a token dump in a file is not accepted. -/

namespace TokenAtlas.Dump

inductive FileError
  | notFound (path : String)
  | wrongExtension (found : Option String)
  | tooLarge (size : Nat)
  | empty
  | permissionDenied (path : String)
  | invalidEncoding (path : String)
  | unreadable (reason : String)
  | invalidPath (path : String)
  | malformed
  | tooManyTokens (count : Nat)
deriving Repr, DecidableEq

namespace FileError

def message : FileError → String
  | .notFound path => s!"File not found: {path}"
  | .wrongExtension none => "Invalid file extension: expected .json, found None"
  | .wrongExtension (some found) =>
    s!"Invalid file extension: expected .json, found Some({Text.quoted found})"
  | .tooLarge size => s!"File too large: {size} bytes (max: {Limits.fileSize})"
  | .empty => "File is empty"
  | .permissionDenied path => s!"Permission denied: {path}"
  | .invalidEncoding path => s!"Invalid UTF-8 encoding in file: {path}"
  | .unreadable reason => s!"I/O error reading file: {reason}"
  | .invalidPath path => s!"Invalid file path: {path}"
  | .malformed => "Malformed token dump: not an array of token records"
  | .tooManyTokens count => s!"Token dump holds {count} tokens (max: {Limits.tokenCount})"

open Log (Code)

def code : FileError → Code
  | .notFound _ => .fileNotFound
  | .wrongExtension _ => .invalidExtension
  | .tooLarge _ => .fileTooLarge
  | .empty => .emptyFile
  | .permissionDenied _ => .permissionDenied
  | .invalidEncoding _ => .invalidEncoding
  | .unreadable _ => .readFailure
  | .invalidPath _ => .invalidPath
  | .malformed => .malformedDump
  | .tooManyTokens _ => .tooManyTokens

/-- Whether the work stops at the error. -/
def requiresHalt (e : FileError) : Bool := e.code.entry.requiresHalt

def isRecoverable (e : FileError) : Bool := e.code.entry.recoverable

end FileError

end TokenAtlas.Dump
