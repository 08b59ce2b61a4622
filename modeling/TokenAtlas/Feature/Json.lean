import TokenAtlas.Feature.Product
import TokenAtlas.Symbol.Json
import TokenAtlas.Token.Json

/-! Recognized features as JSON values. A product carries the name of its feature. -/

namespace TokenAtlas

open Json (Value)

namespace Block

def toJson (b : Block) : Value :=
  .object [("open_depth", .int b.depth), ("open_token", b.opener.toJson),
    ("close_token", b.closer.toJson)]

def ofJson? (v : Value) : Option Block := do
  match ← v.parts? ["open_depth", "open_token", "close_token"] with
  | [depth, opener, closer] =>
    return ⟨← Value.required Value.int32? depth, ← Value.required Token.ofJson? opener,
      ← Value.required Token.ofJson? closer⟩
  | _ => none

end Block

namespace NamespaceDeclaration

def fields (d : NamespaceDeclaration) : List (String × Value) :=
  [("name", .string d.name), ("body", .ofOption Block.toJson d.body)]

def ofJson? (v : Value) : Option NamespaceDeclaration := do
  match ← v.parts? ["name", "body"] with
  | [name, body] =>
    return ⟨← Value.required Value.string? name, ← Value.optional Block.ofJson? body⟩
  | _ => none

end NamespaceDeclaration

namespace ImportEntry

def toJson (e : ImportEntry) : Value :=
  .object [("kind", .string e.kind.name), ("name", .string e.name),
    ("alias", .ofString? e.knownAs)]

def ofJson? (v : Value) : Option ImportEntry := do
  match ← v.parts? ["kind", "name", "alias"] with
  | [kind, name, knownAs] =>
    return ⟨← Value.required SymbolKind.ofJson? kind, ← Value.required Value.string? name,
      ← Value.optional Value.string? knownAs⟩
  | _ => none

end ImportEntry

namespace ImportDeclaration

def fields (d : ImportDeclaration) : List (String × Value) :=
  [("entries", .array (d.entries.map ImportEntry.toJson)),
   ("group_prefix", .ofString? d.groupPrefix)]

def ofJson? (v : Value) : Option ImportDeclaration := do
  match ← v.parts? ["entries", "group_prefix"] with
  | [entries, groupPrefix] =>
    return ⟨← Value.required (Value.list? ImportEntry.ofJson?) entries,
      ← Value.optional Value.string? groupPrefix⟩
  | _ => none

end ImportDeclaration

def FunctionKind.ofJson? : Value → Option FunctionKind :=
  Value.innerChoice? ([.named, .anonymous, .arrow].map fun k : FunctionKind => (k.name, k))

namespace Parameter

def toJson (p : Parameter) : Value :=
  .object [("types", .ofStrings p.types), ("name", .string p.name),
    ("default", .ofString? p.default), ("by_reference", .bool p.byReference),
    ("variadic", .bool p.variadic)]

def ofJson? (v : Value) : Option Parameter := do
  match ← v.parts? ["types", "name", "default", "by_reference", "variadic"] with
  | [types, name, default, byReference, variadic] =>
    return ⟨← Value.required (Value.list? Value.string?) types,
      ← Value.required Value.string? name, ← Value.optional Value.string? default,
      ← Value.required Value.bool? byReference, ← Value.required Value.bool? variadic⟩
  | _ => none

end Parameter

namespace Signature

def fields (s : Signature) : List (String × Value) :=
  [("kind", .string s.kind.name), ("name", .ofString? s.name),
   ("has_reference", .bool s.hasReference),
   ("parameters", .array (s.parameters.map Parameter.toJson)),
   ("return_types", .ofStrings s.returnTypes), ("use_string", .string s.useText),
   ("body", .ofOption Block.toJson s.body)]

def ofJson? (v : Value) : Option Signature := do
  match ← v.parts? ["kind", "name", "has_reference", "parameters", "return_types", "use_string",
      "body"] with
  | [kind, name, hasReference, parameters, returnTypes, useText, body] =>
    return ⟨← Value.required FunctionKind.ofJson? kind, ← Value.optional Value.string? name,
      ← Value.required Value.bool? hasReference,
      ← Value.required (Value.list? Parameter.ofJson?) parameters,
      ← Value.required (Value.list? Value.string?) returnTypes,
      ← Value.required Value.string? useText, ← Value.optional Block.ofJson? body⟩
  | _ => none

end Signature

namespace Product

def fields : Product → List (String × Value)
  | .namespaceDeclaration d => d.fields
  | .namespaceImport d => d.fields
  | .functionSignature s => s.fields

def toJson (p : Product) : Value := .object (("feature", .string p.feature.name) :: p.fields)

def ofJson? (v : Value) : Option Product := do
  match ← v.tagged? "feature" with
  | (.string "namespace_declaration", v) =>
    return .namespaceDeclaration (← NamespaceDeclaration.ofJson? v)
  | (.string "namespace_import", v) => return .namespaceImport (← ImportDeclaration.ofJson? v)
  | (.string "function_signature", v) => return .functionSignature (← Signature.ofJson? v)
  | _ => none

end Product

end TokenAtlas
