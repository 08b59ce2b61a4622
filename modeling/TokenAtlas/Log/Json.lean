import TokenAtlas.Json.Value
import TokenAtlas.Log.Event

/-! Codes and events as JSON values. -/

namespace TokenAtlas.Log

open Json (Value)

namespace CodeEntry

/-- What holds for a code, without the code. -/
def fields (e : CodeEntry) : List (String × Value) :=
  [("severity", .string e.severity.name), ("recoverable", .bool e.recoverable),
   ("requires_halt", .bool e.requiresHalt), ("description", .string e.description),
   ("action", .string e.action), ("category", .string e.category)]

def toJson (e : CodeEntry) : Value := .object (("code", .string e.code) :: e.fields)

end CodeEntry

namespace Event

/-- The event as the fields of an object. Only errors tell whether work can go on. -/
def fields (e : Event) : List (String × Value) :=
  let entry := e.code.entry
  let context := e.context.toList.map fun entry => (entry.1, Value.string entry.2)
  [("category", .string entry.category), ("code", .string e.code)] ++
    (if context.isEmpty then [] else [("context", .object context)]) ++
    [("level", .string e.level.name), ("message", .string e.message)] ++
    (if e.isError then
      [("recoverable", .bool entry.recoverable), ("requires_halt", .bool entry.requiresHalt)]
     else []) ++
    match e.span with
    | some s =>
      [("span", .object [("line", .ofNat s.start.line), ("start", .ofNat s.start.offset),
        ("end", .ofNat s.stop.offset)])]
    | none => []

end Event

end TokenAtlas.Log
