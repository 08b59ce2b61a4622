import TokenAtlas.Json.Decode
import TokenAtlas.Token.Basic

/-! Tokens as JSON values. A kind is written by its name. -/

namespace TokenAtlas

open Json (Value)

namespace Token

/-- The fields of a token as an object. -/
def fields (t : Token) : List (String × Value) :=
  [("kind", .string t.kind.name), ("text", .string t.text), ("line", .ofNat t.line),
   ("offset", .ofNat t.offset)]

def toJson (t : Token) : Value := .object t.fields

def fieldNames : List String := ["kind", "text", "line", "offset"]

/-- The token of the four parts of a value. A kind without a name is unknown. -/
def ofParts? : List (Option Value) → Option Token
  | [kind, text, line, offset] => do
    return ⟨.ofName (← Value.required Value.string? kind), ← Value.required Value.string? text,
      ← Value.required Value.line? line, ← Value.required Value.count? offset⟩
  | _ => none

def ofJson? (v : Value) : Option Token := v.parts? fieldNames >>= ofParts?

end Token

end TokenAtlas
