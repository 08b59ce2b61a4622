import Std.Data.TreeMap
import TokenAtlas.Limits
import TokenAtlas.Log.Code
import TokenAtlas.Span
import TokenAtlas.Text.Clamp

/-! Log events. An event has a level, a code, a message of bounded length, perhaps a
span, and a context of named values in the order of their names. -/

namespace TokenAtlas.Log

/-- Levels, the most severe first. -/
inductive Level
  | error | warning | info | debug
deriving Repr, DecidableEq

namespace Level

def name : Level → String
  | .error => "ERROR"
  | .warning => "WARN"
  | .info => "INFO"
  | .debug => "DEBUG"

/-- The word for a level in settings. -/
def word : Level → String
  | .error => "error"
  | .warning => "warning"
  | .info => "info"
  | .debug => "debug"

def all : List Level := [.error, .warning, .info, .debug]

def rank : Level → Nat
  | .error => 0
  | .warning => 1
  | .info => 2
  | .debug => 3

/-- Ranks beyond the last level stand for it. -/
def ofRank : Nat → Level
  | 0 => .error
  | 1 => .warning
  | 2 => .info
  | _ => .debug

/-- Whether a filter at `least` lets events of level `l` pass. -/
def admits (least l : Level) : Bool := l.rank ≤ least.rank

/-- The less severe of two levels. -/
def wider (a b : Level) : Level := if a.rank ≤ b.rank then b else a

end Level

structure Event where
  level : Level
  code : Code
  message : String
  span : Option Span
  context : Std.TreeMap String String

namespace Event

/-- An event without span and context. -/
def make (level : Level) (code : Code) (message : String) : Event :=
  ⟨level, code, Text.clamp Limits.messageLength message, none, ∅⟩

def error (code : Code) (message : String) : Event := make .error code message

def warningWith (code : Code) (message : String) : Event := make .warning code message

def warning (message : String) : Event := warningWith .genericWarning message

def success (code : Code) (message : String) : Event := make .info code message

def info (message : String) : Event := success .genericInfo message

def debug (message : String) : Event := make .debug .genericDebug message

/-- Set a value of the context. A later value takes the place of an earlier one. -/
def put (e : Event) (name value : String) : Event :=
  { e with context := e.context.insert name value }

def putAll (e : Event) (entries : List (String × String)) : Event :=
  entries.foldl (fun e entry => e.put entry.1 entry.2) e

def isError (e : Event) : Bool := e.level = .error

def isWarning (e : Event) : Bool := e.level = .warning

/-- The event on one line. -/
def toText (e : Event) : String :=
  let place := match e.span with
    | some s => s!" at {s.toText}"
    | none => ""
  let entries := e.context.toList.map fun entry => s!"{entry.1}={entry.2}"
  let context := if entries.isEmpty then "" else " \x7b" ++ ", ".intercalate entries ++ "\x7d"
  s!"[{e.level.name}] {e.code} - {e.message}{place}{context}"

/-- The event with what the registry knows about its code. -/
def details (e : Event) : String :=
  let entry := e.code.entry
  let advice :=
    if e.isError then s!"\n  Requires halt: {entry.requiresHalt}\n  Action: {entry.action}" else ""
  s!"{e.toText}\n  Category: {entry.category}\n  Severity: {entry.severity.name}{advice}"

end Event

end TokenAtlas.Log
