import TokenAtlas.Dump.Record
import TokenAtlas.Json.Decode
import TokenAtlas.Json.Reader
import TokenAtlas.Limits
import TokenAtlas.Measure.Figures

/-! Token dumps as JSON. A dump is an array of records; a record is an object, an array of kind,
text and line, or a string that is kind and text at once. What is known about the file of a dump
is written as an object. -/

namespace TokenAtlas.Dump

open Json

/-- Why a text is no token dump. -/
inductive ReadError
  | malformed
  | tooManyTokens (count : Nat)
deriving Repr, DecidableEq

def Record.ofObject? (v : Value) : Option Record := do
  match ← v.objectParts? ["kind", "text", "line", "offset"] with
  | [kind, text, line, offset] =>
    return ⟨.ofName (← Value.required Value.string? kind), ← Value.required Value.string? text,
      ← Value.optional Value.line? line, ← Value.optional Value.count? offset⟩
  | _ => none

/-- The record that a value stands for. Every part of the value must be readable, also
where the record does not need it. -/
def Record.ofJson? (v : Value) : Option Record :=
  if !v.isReadable then none
  else
    match v with
    | .object _ => ofObject? v
    | .array [.string kind, .string text, line] =>
      line.line?.map fun n => ⟨.ofName kind, text, some n, none⟩
    | .string s => some ⟨.ofName s, s, none, none⟩
    | _ => none

/-- The records of a dump. -/
def records? (v : Value) : Option (List Record) := v.list? Record.ofJson?

/-- The tokens of a dump with these records, unless there are too many. -/
def ofRecords (rs : List Record) : Except ReadError (List Token) :=
  if Limits.tokenCount < rs.length then .error (.tooManyTokens rs.length) else .ok (tokens rs)

/-- The tokens of a dump that was read as a value. -/
def ofJson (v : Value) : Except ReadError (List Token) :=
  match records? v with
  | none => .error .malformed
  | some rs => ofRecords rs

/-- Read a token dump. -/
def parse (content : String) : Except ReadError (List Token) :=
  match read? content with
  | none => .error .malformed
  | some v => ofJson v

/-- What is known about a dump's file. -/
structure Metadata where
  path : String
  size : Nat
  extension : Option String
  tokenCount : Nat
deriving Repr, DecidableEq

namespace Metadata

def isJson (m : Metadata) : Bool := m.extension = some "json"

def toJson (m : Metadata) : Value :=
  .object [("size", .ofNat m.size), ("human", .string (Measure.sizeText m.size)),
    ("extension", .ofString? m.extension), ("token_count", .ofNat m.tokenCount),
    ("is_json", .bool m.isJson), ("large", .bool (isLargeSize m.size)),
    ("path", .string m.path)]

end Metadata

end TokenAtlas.Dump
